import KatanaRecomp.Runtime.CodePromotion
import KatanaRecomp.Runtime.ModuleSoundness

/-! # What a control transfer opens

The roles after a promotion tile the module: code on the window and on what was
materializable by its role, data on the rest. Bytes without a role count as code before
and as data afterwards, so a promotion narrows a module that had such bytes. -/
namespace KatanaRecomp.Runtime
open Lib (mergeIntervals Reaches reaches_cons Separate TilesFrom reaches_mergeIntervals
  separate_mergeIntervals reaches_perm)

namespace ExecutableModule
variable {module : ExecutableModule}

/-! ## Ranges of a module -/

/-- `materializable`, for bytes of the module. -/
def materializableRange (module : ExecutableModule) (width offset : Nat) : Bool :=
  module.executablePermission && module.active && (module.activeExtents.any fun extent =>
      decide (extent.offset ≤ offset) && decide (offset + width ≤ extent.offset + extent.size)) &&
    module.rangeRoles.all fun range =>
      decide (range.role = .runtimeMaterializable) || decide (range.size = 0) ||
        !(decide (offset < range.offset + range.size) && decide (range.offset < offset + width))

theorem materializable_eq (address : BitVec 32) (width : Nat) :
    module.materializable address width =
      (module.moduleOffset address width).any (module.materializableRange width) := by
  unfold materializable contains materializableRange
  cases module.moduleOffset address width with
  | none => simp
  | some offset =>
    simp only [Option.any_some, Option.all_some]
    cases module.executablePermission with
    | true => simp
    | false => simp

/-- A role other than code covers the byte. -/
def DataAt (roles : List ExecutableModuleRangeRole) (offset : Nat) : Prop :=
  ∃ range ∈ roles, range.role ≠ .runtimeMaterializable ∧
    range.offset ≤ offset ∧ offset < range.offset + range.size

/-- The byte is code by its role. -/
def CodeAt (roles : List ExecutableModuleRangeRole) (offset : Nat) : Prop :=
  ∃ range ∈ roles, range.role = .runtimeMaterializable ∧
    range.offset ≤ offset ∧ offset < range.offset + range.size

/-- The bytes lie in one active extent. -/
def Inside (module : ExecutableModule) (width offset : Nat) : Prop :=
  module.active = true ∧ ∃ extent ∈ module.activeExtents,
    extent.offset ≤ offset ∧ offset + width ≤ extent.offset + extent.size

variable {width offset : Nat}

theorem materializableRange_iff (hwidth : 0 < width) :
    module.materializableRange width offset = true ↔
      module.executablePermission = true ∧ module.Inside width offset ∧
        ∀ position, offset ≤ position → position < offset + width →
          ¬ DataAt module.rangeRoles position := by
  unfold materializableRange Inside
  simp only [Bool.and_eq_true, List.any_eq_true, decide_eq_true_eq, List.all_eq_true, and_assoc]
  refine and_congr_right fun _ => and_congr_right fun _ => and_congr_right fun _ => ?_
  constructor
  · rintro hall position hlow hhigh ⟨range, hrange, hrole, hstart, hend⟩
    have hclear := hall range hrange
    simp only [Bool.or_eq_true, decide_eq_true_eq, hrole, false_or, Bool.not_eq_true',
      Bool.and_eq_false_iff, decide_eq_false_iff_not] at hclear
    omega
  · intro hclear range hrange
    by_contra hmeets
    simp only [Bool.or_eq_true, decide_eq_true_eq, Bool.not_eq_true', Bool.and_eq_false_iff,
      decide_eq_false_iff_not, not_or, not_not] at hmeets
    obtain ⟨⟨hrole, hsize⟩, hend, hstart⟩ := hmeets
    exact hclear (max offset range.offset) (le_max_left _ _) (by omega)
      ⟨range, hrange, hrole, le_max_right _ _, by omega⟩

/-! ## The window -/

variable {address : BitVec 32}

theorem windowBegin_lt (h : module.contains address 2 = true) :
    module.windowBegin address < module.bytes.length := by
  unfold contains at h
  obtain ⟨-, hoffset⟩ := Bool.and_eq_true_iff.mp h
  unfold moduleOffset at hoffset
  dsimp only at hoffset
  split at hoffset
  · cases hoffset
  rename_i hinside
  unfold windowBegin
  split
  · rename_i hvirtual
    have hle : module.guestStart.toNat ≤ address.toNat := BitVec.le_def.mp hvirtual.1
    have hend := hvirtual.2
    unfold endAddress at hend
    rw [BitVec.toNat_sub_of_le hvirtual.1]
    omega
  · have hle : canonicalPhysicalAddress module.guestStart ≤ canonicalPhysicalAddress address := by
      rw [BitVec.le_def]
      unfold physicalStart at hinside
      omega
    rw [BitVec.toNat_sub_of_le hle]
    unfold physicalStart at hinside
    omega

variable {maximumBytes : BitVec 32}

theorem windowBegin_lt_windowEnd
    (h : module.contains address 2 = true) (hmaximum : ¬ maximumBytes < 2) :
    module.windowBegin address < module.windowEnd address maximumBytes := by
  have hbegin := windowBegin_lt h
  have htwo : 2 ≤ maximumBytes.toNat := by
    rw [BitVec.lt_def] at hmaximum
    exact Nat.le_of_not_lt hmaximum
  unfold windowEnd
  omega

variable {position : Nat}

theorem reaches_executableIntervals :
    Reaches (module.executableIntervals address maximumBytes) position ↔
      (module.windowBegin address ≤ position ∧ position < module.windowEnd address maximumBytes) ∨
      CodeAt module.rangeRoles position := by
  unfold executableIntervals
  rw [reaches_cons]
  refine or_congr_right ?_
  constructor
  · rintro ⟨interval, hinterval, hin⟩
    obtain ⟨range, hrange, rfl⟩ := List.mem_map.mp hinterval
    obtain ⟨hmem, hrole⟩ := List.mem_filter.mp hrange
    simp only [Bool.and_eq_true, decide_eq_true_eq] at hrole
    exact ⟨range, hmem, hrole.1, hin⟩
  · rintro ⟨range, hrange, hrole, hlow, hhigh⟩
    refine ⟨_, List.mem_map.mpr ⟨range, List.mem_filter.mpr ⟨hrange, ?_⟩, rfl⟩, hlow, hhigh⟩
    simp only [Bool.and_eq_true, decide_eq_true_eq]
    exact ⟨hrole, by omega⟩

theorem sortIntervals_perm (intervals : List (Nat × Nat)) :
    (sortIntervals intervals).Perm intervals := List.perm_insertionSort _ _

theorem sortIntervals_sorted (intervals : List (Nat × Nat)) :
    (sortIntervals intervals).Pairwise fun left right => left.1 ≤ right.1 := by
  have htotal : Std.Total fun left right : Nat × Nat =>
      left.1 < right.1 ∨ (left.1 = right.1 ∧ left.2 ≤ right.2) := ⟨fun left right => by omega⟩
  have htrans : IsTrans (Nat × Nat) fun left right =>
      left.1 < right.1 ∨ (left.1 = right.1 ∧ left.2 ≤ right.2) := ⟨fun left middle right => by omega⟩
  refine (List.pairwise_insertionSort _ _).imp fun h => ?_
  omega

/-- The intervals that the new roles open. -/
def openIntervals (module : ExecutableModule) (address maximumBytes : BitVec 32) :
    List (Nat × Nat) :=
  mergeIntervals (sortIntervals (module.executableIntervals address maximumBytes))

theorem reaches_openIntervals : Reaches (module.openIntervals address maximumBytes) position ↔
      (module.windowBegin address ≤ position ∧ position < module.windowEnd address maximumBytes) ∨
      CodeAt module.rangeRoles position := by
  unfold openIntervals
  rw [reaches_mergeIntervals (sortIntervals_sorted _), reaches_perm (sortIntervals_perm _),
    reaches_executableIntervals]

theorem separate_openIntervals (hroles : ∀ range ∈ module.rangeRoles,
      range.size ≠ 0 ∧ range.offset + range.size ≤ module.bytes.length)
    (h : module.contains address 2 = true) (hmaximum : ¬ maximumBytes < 2) :
    Separate module.bytes.length (module.openIntervals address maximumBytes) := by
  have hall : ∀ interval ∈ sortIntervals (module.executableIntervals address maximumBytes),
      interval.1 < interval.2 ∧ interval.2 ≤ module.bytes.length := by
    intro interval hinterval
    have hmem := (sortIntervals_perm _).subset hinterval
    rcases List.mem_cons.mp hmem with rfl | hrole
    · exact ⟨windowBegin_lt_windowEnd h hmaximum, Nat.min_le_left _ _⟩
    · obtain ⟨range, hrange, rfl⟩ := List.mem_map.mp hrole
      have hfits := hroles range (List.mem_filter.mp hrange).1
      dsimp only
      omega
  exact separate_mergeIntervals (sortIntervals_sorted _)
    (fun interval hinterval => (hall interval hinterval).1)
    fun interval hinterval => (hall interval hinterval).2

/-! ## The new roles -/

theorem committedRoles_cons (size cursor : Nat) (interval : Nat × Nat) (rest : List (Nat × Nat)) :
    committedRoles size cursor (interval :: rest) =
      (if cursor < interval.1 then [⟨cursor, interval.1 - cursor, .provenData⟩] else []) ++
        ⟨interval.1, interval.2 - interval.1, .runtimeMaterializable⟩ ::
          committedRoles size interval.2 rest := rfl

theorem committedRoles_tile {size cursor : Nat} {intervals : List (Nat × Nat)}
    (h : Separate size intervals) (hcursor : cursor ≤ size)
    (hbefore : ∀ interval ∈ intervals, cursor ≤ interval.1) : TilesFrom size cursor
      ((committedRoles size cursor intervals).map fun range => (range.offset, range.size)) := by
  induction intervals generalizing cursor with
  | nil =>
    unfold committedRoles
    split
    · exact ⟨rfl, by dsimp only; omega, by change cursor + (size - cursor) = size; omega⟩
    · exact Nat.le_antisymm hcursor (by omega)
  | cons interval rest ih =>
    obtain ⟨hnonempty, hnonempties⟩ := List.forall_mem_cons.mp h.nonempty
    obtain ⟨hinside, hinsides⟩ := List.forall_mem_cons.mp h.inside
    obtain ⟨hafter, hapart⟩ := List.pairwise_cons.mp h.apart
    have hstart := hbefore interval List.mem_cons_self
    have hrest := @ih interval.2 ⟨hnonempties, hinsides, hapart⟩ hinside
      fun other hother => (hafter other hother).le
    have hwidth : interval.1 + (interval.2 - interval.1) = interval.2 := by omega
    have hcode : TilesFrom size interval.1 ((⟨interval.1, interval.2 - interval.1,
        .runtimeMaterializable⟩ :: committedRoles size interval.2 rest).map
          fun range : ExecutableModuleRangeRole => (range.offset, range.size)) := by
      refine ⟨rfl, by dsimp only; omega, ?_⟩
      rw [hwidth]
      exact hrest
    rw [committedRoles_cons]
    split
    · refine ⟨rfl, by dsimp only; omega, ?_⟩
      rw [show cursor + (interval.1 - cursor) = interval.1 by omega]
      exact hcode
    · rwa [show cursor = interval.1 by omega]

variable {size cursor : Nat}

variable {intervals : List (Nat × Nat)}

theorem codeAt_committedRoles :
    CodeAt (committedRoles size cursor intervals) position ↔ Reaches intervals position := by
  induction intervals generalizing cursor with
  | nil =>
    unfold committedRoles CodeAt Reaches
    split
    · simp
    · simp
  | cons interval rest ih =>
    rw [reaches_cons, ← @ih interval.2, committedRoles_cons]
    unfold CodeAt
    constructor
    · rintro ⟨range, hrange, hrole, hlow, hhigh⟩
      rcases List.mem_append.mp hrange with hdata | hcode
      · split at hdata
        · rw [List.mem_singleton.mp hdata] at hrole
          cases hrole
        · cases hdata
      · rcases List.mem_cons.mp hcode with rfl | hrest
        · dsimp only at hlow hhigh
          exact .inl (by omega)
        · exact .inr ⟨range, hrest, hrole, hlow, hhigh⟩
    · rintro (⟨hlow, hhigh⟩ | ⟨range, hrange, hrole, hlow, hhigh⟩)
      · exact ⟨⟨interval.1, interval.2 - interval.1, .runtimeMaterializable⟩,
          List.mem_append_right _ List.mem_cons_self, rfl, hlow, by dsimp only; omega⟩
      · exact ⟨range, List.mem_append_right _ (List.mem_cons_of_mem _ hrange), hrole, hlow, hhigh⟩

/-- Data lies between the intervals. -/
theorem not_reaches_of_dataAt
    (h : Separate size intervals) (hbefore : ∀ interval ∈ intervals, cursor ≤ interval.1)
    (hdata : DataAt (committedRoles size cursor intervals) position) :
    cursor ≤ position ∧ position < size ∧ ¬ Reaches intervals position := by
  induction intervals generalizing cursor with
  | nil =>
    obtain ⟨range, hrange, -, hlow, hhigh⟩ := hdata
    unfold committedRoles at hrange
    split at hrange
    · rw [List.mem_singleton.mp hrange] at hlow hhigh
      dsimp only at hlow hhigh
      exact ⟨hlow, by omega, fun hreaches => by simp [Reaches] at hreaches⟩
    · cases hrange
  | cons interval rest ih =>
    obtain ⟨hnonempty, hnonempties⟩ := List.forall_mem_cons.mp h.nonempty
    obtain ⟨hinside, hinsides⟩ := List.forall_mem_cons.mp h.inside
    obtain ⟨hafter, hapart⟩ := List.pairwise_cons.mp h.apart
    have hstart := hbefore interval List.mem_cons_self
    obtain ⟨range, hrange, hrole, hlow, hhigh⟩ := hdata
    rw [committedRoles_cons] at hrange
    rw [reaches_cons]
    rcases List.mem_append.mp hrange with hgap | hcode
    · split at hgap
      · rw [List.mem_singleton.mp hgap] at hlow hhigh
        dsimp only at hlow hhigh
        refine ⟨hlow, by omega, ?_⟩
        rintro (hin | ⟨other, hother, hin⟩)
        · omega
        · have happart := hafter other hother
          omega
      · cases hgap
    · rcases List.mem_cons.mp hcode with rfl | hrest
      · exact absurd rfl hrole
      · obtain ⟨hcursor, hsize, hnot⟩ := @ih interval.2 ⟨hnonempties, hinsides, hapart⟩
          (fun other hother => (hafter other hother).le) ⟨range, hrest, hrole, hlow, hhigh⟩
        exact ⟨by omega, hsize, fun hin => hin.elim (fun hin => by omega) hnot⟩

/-! ## The module after a promotion -/

theorem openWindow_rangeRoles (address maximumBytes : BitVec 32) :
    (module.openWindow address maximumBytes).rangeRoles =
      committedRoles module.bytes.length 0 (module.openIntervals address maximumBytes) := rfl

/-- What an authorization may change: the window opens, nothing closes, nothing else opens,
and the roles tile the module. -/
structure WidensOnly (before after : ExecutableModule) (windowBegin windowEnd : Nat) : Prop where
  opened : ∀ offset, windowBegin ≤ offset → offset + 2 ≤ windowEnd → after.Inside 2 offset →
    after.materializableRange 2 offset = true
  kept : ∀ width offset, 0 < width → before.materializableRange width offset = true →
    after.materializableRange width offset = true
  only : ∀ offset, after.materializableRange 1 offset = true →
    before.materializableRange 1 offset = true ∨
      (windowBegin ≤ offset ∧ offset < windowEnd) ∨ CodeAt before.rangeRoles offset
  tiled : TilesFrom before.bytes.length 0
    (after.rangeRoles.map fun range => (range.offset, range.size))

/-- No role covers the byte. -/
def Unlabelled (module : ExecutableModule) (offset : Nat) : Prop :=
  ∀ range ∈ module.rangeRoles, ¬ (range.offset ≤ offset ∧ offset < range.offset + range.size)

theorem Inside.lt_length (h : module.Inside width offset) (hwidth : 0 < width)
    (hextents : SoundExtents module.bytes.length module.activeExtents) :
    offset < module.bytes.length := by
  obtain ⟨-, extent, hextent, -, hend⟩ := h
  have hinside := (hextents.inside extent hextent).2
  omega

theorem Inside.byte (h : module.Inside width offset)
    (hlow : offset ≤ position) (hhigh : position < offset + width) : module.Inside 1 position := by
  obtain ⟨hactive, extent, hextent, hstart, hend⟩ := h
  exact ⟨hactive, extent, hextent, by omega, by omega⟩

theorem openWindow_dataAt (h : module.Sound)
    (hcontains : module.contains address 2 = true) (hmaximum : ¬ maximumBytes < 2)
    (hdata : DataAt (module.openWindow address maximumBytes).rangeRoles position) :
    ¬ ((module.windowBegin address ≤ position ∧ position < module.windowEnd address maximumBytes) ∨
      CodeAt module.rangeRoles position) := by
  rw [openWindow_rangeRoles] at hdata
  rw [← reaches_openIntervals]
  exact (not_reaches_of_dataAt (separate_openIntervals h.roles hcontains hmaximum)
    (fun _ _ => Nat.zero_le _) hdata).2.2

/-- A byte that is open after the promotion lies in the window or was code by its role. -/
theorem openWindow_open (h : module.Sound)
    (hcontains : module.contains address 2 = true) (hmaximum : ¬ maximumBytes < 2)
    (hposition : position < module.bytes.length)
    (hopen : ¬ DataAt (module.openWindow address maximumBytes).rangeRoles position) :
    (module.windowBegin address ≤ position ∧ position < module.windowEnd address maximumBytes) ∨
      CodeAt module.rangeRoles position := by
  have htiles := @committedRoles_tile module.bytes.length 0 _
    (separate_openIntervals h.roles hcontains hmaximum) (Nat.zero_le _) fun _ _ => Nat.zero_le _
  obtain ⟨piece, hpiece, hlow, hhigh⟩ := htiles.reaches (Nat.zero_le _) hposition
  obtain ⟨range, hrange, rfl⟩ := List.mem_map.mp hpiece
  rw [openWindow_rangeRoles] at hopen
  rw [← reaches_openIntervals, ← codeAt_committedRoles]
  refine ⟨range, hrange, ?_, hlow, hhigh⟩
  by_contra hrole
  exact hopen ⟨range, hrange, hrole, hlow, hhigh⟩

/-- A promotion only widens exactly when no byte without a role closes. -/
theorem openWindow_widens_iff (h : module.Sound)
    (hcontains : module.contains address 2 = true) (hmaximum : ¬ maximumBytes < 2) :
    WidensOnly module (module.openWindow address maximumBytes) (module.windowBegin address)
        (module.windowEnd address maximumBytes) ↔
      (module.executablePermission = true → ∀ offset, module.Inside 1 offset →
        module.Unlabelled offset → module.windowBegin address ≤ offset ∧
          offset < module.windowEnd address maximumBytes) := by
  constructor
  · intro hwidens hpermission offset hinside hunlabelled
    have hbefore : module.materializableRange 1 offset = true := by
      refine (materializableRange_iff Nat.one_pos).mpr ⟨hpermission, hinside, ?_⟩
      rintro position hlow hhigh ⟨range, hrange, -, hcovers⟩
      exact hunlabelled range hrange (by omega)
    have hafter := hwidens.kept 1 offset Nat.one_pos hbefore
    obtain ⟨-, -, hopen⟩ := (materializableRange_iff Nat.one_pos).mp hafter
    rcases openWindow_open h hcontains hmaximum (hinside.lt_length Nat.one_pos h.extents)
      (hopen offset le_rfl (Nat.lt_succ_self _)) with hwindow | ⟨range, hrange, -, hcovers⟩
    · exact hwindow
    · exact absurd hcovers (hunlabelled range hrange)
  · intro hcondition
    constructor
    · intro offset hlow hhigh hinside
      refine (materializableRange_iff Nat.two_pos).mpr ⟨rfl, hinside, ?_⟩
      intro position hstart hend hdata
      exact openWindow_dataAt h hcontains hmaximum hdata (.inl (by omega))
    · intro width offset hwidth hbefore
      obtain ⟨hpermission, hinside, hclear⟩ := (materializableRange_iff hwidth).mp hbefore
      refine (materializableRange_iff hwidth).mpr ⟨rfl, hinside, ?_⟩
      intro position hlow hhigh hdata
      have hneither := openWindow_dataAt h hcontains hmaximum hdata
      refine hneither (.inl (hcondition hpermission position (hinside.byte hlow hhigh) ?_))
      intro range hrange hcovers
      by_cases hrole : range.role = .runtimeMaterializable
      · exact hneither (.inr ⟨range, hrange, hrole, hcovers⟩)
      · exact hclear position hlow hhigh ⟨range, hrange, hrole, hcovers⟩
    · intro offset hafter
      obtain ⟨-, hinside, hopen⟩ := (materializableRange_iff Nat.one_pos).mp hafter
      have hbefore : module.Inside 1 offset := hinside
      exact .inr (openWindow_open h hcontains hmaximum
        (hbefore.lt_length Nat.one_pos h.extents) (hopen offset le_rfl (Nat.lt_succ_self _)))
    · rw [openWindow_rangeRoles]
      exact committedRoles_tile (separate_openIntervals h.roles hcontains hmaximum)
        (Nat.zero_le _) fun _ _ => Nat.zero_le _

theorem TilesFrom.sound {roles : List ExecutableModuleRangeRole}
    (h : TilesFrom size cursor (roles.map fun range => (range.offset, range.size))) :
    ∀ range ∈ roles, range.size ≠ 0 ∧ range.offset + range.size ≤ size := by
  induction roles generalizing cursor with
  | nil => exact fun _ h => absurd h List.not_mem_nil
  | cons first rest ih =>
    obtain ⟨hstart, hsize, hrest⟩ := h
    have hle := hrest.le
    refine List.forall_mem_cons.mpr ⟨?_, ih hrest⟩
    dsimp only at hstart hsize hle
    omega

/-- A promotion keeps a module sound. -/
theorem Sound.openWindow (h : module.Sound)
    (hcontains : module.contains address 2 = true) (hmaximum : ¬ maximumBytes < 2) :
    (module.openWindow address maximumBytes).Sound :=
  ⟨h.named, h.filled, h.aligned, h.generations, h.ending, h.linear, h.extents,
    TilesFrom.sound (committedRoles_tile (separate_openIntervals h.roles hcontains hmaximum)
      (Nat.zero_le _) fun _ _ => Nat.zero_le _)⟩

end ExecutableModule
end KatanaRecomp.Runtime
