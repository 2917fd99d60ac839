import KatanaRecomp.Analysis.FunctionEdgeJournal

/-! # The journal stays consistent

The families are what the journal is about; the chain of layers, the number of
entries, the fingerprints and the index each say the same about them, and the
pending changes lead to them from the families of the last clear. One site is
replaced at a time, so every invariant is proved for a refresh that has reached
some of its sites: the layer it collects lies over the root it started from. -/
namespace KatanaRecomp.Analysis
open Lib ByteFormat
open scoped Lib.BitVecOrder

namespace StateRoot

@[simp]
theorem flatten_node (address : Nat) (base : StateRoot) (changes : StateChanges) :
    (node address base changes).flatten = applyLayer base.flatten changes := by
  simp [flatten, chain]

/-- A layer decides the sites that it names. -/
theorem find_applyLayer (values : FamilyMap) (layer : StateChanges) (site : BitVec 32) :
    (applyLayer values layer).find site = (layer.find site).getD (values.find site) := by
  have hwrite : ∀ (values : FamilyMap) (change : BitVec 32 × Option FunctionEdgeFamilies) site,
      (writeChange values change).find site =
        if site = change.1 then id change.2 else values.find site := by
    intro values change site
    obtain ⟨changed, families⟩ := change
    cases families with
    | none => exact OrderedMap.find_erase _ _ _
    | some families => exact OrderedMap.find_insertOrAssign _ _ _ _
  have hread := OrderedMap.read_foldl_entries OrderedMap.find writeChange id hwrite layer values site
  rw [Option.map_id] at hread
  exact hread

theorem applyLayer_empty (values : FamilyMap) : applyLayer values .empty = values := rfl

end StateRoot

namespace FunctionEdgeJournal

/-! ## The predecessor index -/

theorem edgeCount_foldl_addEdge (edges : List FunctionEdge) (index : GlobalEntryPredecessorIndex)
    (source target : BitVec 32) :
    (edges.foldl (fun index edge => index.addEdge edge.instructionAddress edge.targetAddress)
      index).edgeCount source target = index.edgeCount source target +
        edges.countP fun edge => edge.instructionAddress = source ∧ edge.targetAddress = target := by
  induction edges generalizing index with
  | nil => rfl
  | cons edge rest ih =>
    rw [List.foldl_cons, ih, GlobalEntryPredecessorIndex.edgeCount_addEdge, List.countP_cons]
    simp only [decide_eq_true_eq, eq_comm (a := source), eq_comm (a := target)]
    omega

theorem edgeCount_foldl_removeEdge (edges : List FunctionEdge)
    (index : GlobalEntryPredecessorIndex) (source target : BitVec 32) :
    (edges.foldl (fun index edge => index.removeEdge edge.instructionAddress edge.targetAddress)
      index).edgeCount source target = index.edgeCount source target -
        edges.countP fun edge => edge.instructionAddress = source ∧ edge.targetAddress = target := by
  induction edges generalizing index with
  | nil => rfl
  | cons edge rest ih =>
    rw [List.foldl_cons, ih, GlobalEntryPredecessorIndex.edgeCount_removeEdge, List.countP_cons]
    simp only [decide_eq_true_eq, eq_comm (a := source), eq_comm (a := target)]
    omega

theorem edgeCount_addPredecessors (families : FunctionEdgeFamilies)
    (index : GlobalEntryPredecessorIndex) (source target : BitVec 32) :
    (addPredecessors families index).edgeCount source target =
      index.edgeCount source target + families.edgeCount source target :=
  edgeCount_foldl_addEdge _ _ _ _

theorem edgeCount_removePredecessors (families : FunctionEdgeFamilies)
    (index : GlobalEntryPredecessorIndex) (source target : BitVec 32) :
    (removePredecessors families index).edgeCount source target =
      index.edgeCount source target - families.edgeCount source target :=
  edgeCount_foldl_removeEdge _ _ _ _

/-! ## What the families determine -/

/-- How often an edge is carried by the families of all sites. -/
def carriedEdges (families : FamilyMap) (source target : BitVec 32) : Nat :=
  families.total (· + ·) 0 fun _ family => family.edgeCount source target

/-- One for each site that has edges. -/
def occupied (family : FunctionEdgeFamilies) : Nat :=
  if family = {} then 0 else 1

def occupiedSites (families : FamilyMap) : Nat :=
  families.total (· + ·) 0 fun _ family => occupied family

/-- The exclusive or of one word for each site. -/
def tokens (token : BitVec 32 → FunctionEdgeFamilies → BitVec 64) (families : FamilyMap) :
    BitVec 64 := families.total (· ^^^ ·) 0 token

theorem occupiedSites_eq_length {families : FamilyMap} (h : families.OmitsDefault {}) :
    occupiedSites families = families.entries.length := by
  have hone : ∀ entry ∈ families.entries, occupied entry.2 = 1 := by
    intro entry hentry
    refine if_neg fun hempty => h entry.1 ?_
    rw [OrderedMap.mem_entries_iff.mp hentry, hempty]
  unfold occupiedSites OrderedMap.total
  generalize families.entries = entries at hone
  induction entries with
  | nil => rfl
  | cons first rest ih =>
    have hrest := ih fun entry hentry => hone entry (List.mem_cons_of_mem _ hentry)
    have hfirst := hone first List.mem_cons_self
    simp only [List.foldr_cons, hrest, hfirst, List.length_cons]
    omega

theorem countEntry_spec {count rest : Nat} {old next : FunctionEdgeFamilies}
    (h : count = occupied old + rest) : countEntry count old next = occupied next + rest := by
  unfold countEntry occupied at *
  by_cases hold : old = {} <;> by_cases hnext : next = {} <;> simp [hold, hnext] at h ⊢ <;> omega

/-- A fingerprint follows a site whose word is exchanged. -/
theorem tokens_store (token : BitVec 32 → FunctionEdgeFamilies → BitVec 64) {families : FamilyMap}
    {site : BitVec 32} {fingerprint : BitVec 64} (next : FunctionEdgeFamilies)
    (hempty : token site {} = 0) (h : fingerprint = tokens token families) :
    fingerprint ^^^ (token site (families.fetch {} site) ^^^ token site next) =
      tokens token (OrderedMap.store {} families site next) := by
  have hold : tokens token families =
      token site (families.fetch {} site) ^^^ tokens token (families.erase site) :=
    OrderedMap.total_fetch _ _ _ hempty
  have hnew : tokens token (OrderedMap.store {} families site next) =
      token site next ^^^ tokens token (families.erase site) := OrderedMap.total_store _ _ _ hempty
  rw [h, hold, hnew]
  generalize token site (families.fetch {} site) = old
  generalize tokens token (families.erase site) = rest
  calc old ^^^ rest ^^^ (old ^^^ token site next)
      = (old ^^^ old) ^^^ (token site next ^^^ rest) := by ac_rfl
    _ = token site next ^^^ rest := by rw [BitVec.xor_self, BitVec.zero_xor]

/-! ## Replacing a site -/

/-- The redundant parts of a journal whose refresh has collected a layer. -/
structure Describes (sha256Bytes : List Byte → List Byte) (journal : FunctionEdgeJournal)
    (layer : StateChanges) : Prop where
  omits : journal.families.OmitsDefault {}
  flattened : StateRoot.applyLayer journal.stateRoot.flatten layer = journal.families
  counted : ∀ source target,
    journal.predecessorIndex.edgeCount source target = carriedEdges journal.families source target
  fingerprintA : journal.fingerprintA =
    tokens (fun site family => (stateToken sha256Bytes site family).1) journal.families
  fingerprintB : journal.fingerprintB =
    tokens (fun site family => (stateToken sha256Bytes site family).2) journal.families
  entries : journal.stateEntryCount = occupiedSites journal.families

variable {sha256Bytes : List Byte → List Byte} {journal : FunctionEdgeJournal}
  {layer : StateChanges} {site : BitVec 32}

theorem families_replaceSite (old next : FunctionEdgeFamilies) :
    (journal.replaceSite sha256Bytes site old next).families =
      OrderedMap.store {} journal.families site next := rfl

theorem Describes.replaceSite (h : journal.Describes sha256Bytes layer)
    (hfresh : layer.find site = none) (next : FunctionEdgeFamilies) :
    (journal.replaceSite sha256Bytes site (journal.families.fetch {} site) next).Describes
      sha256Bytes (layer.emplace site (if next = {} then none else some next)) where
  omits := h.omits.omits_store site next
  flattened := by
    refine OrderedMap.ext_find fun site' => ?_
    have hbefore := congrArg (·.find site') h.flattened
    simp only [StateRoot.find_applyLayer] at hbefore
    rw [StateRoot.find_applyLayer, OrderedMap.find_emplace, families_replaceSite,
      OrderedMap.find_store]
    by_cases hsite : site' = site
    · rw [if_pos hsite, if_pos hsite, hfresh]
      rfl
    · rw [if_neg hsite, if_neg hsite]
      exact hbefore
  counted source target := by
    have hold : carriedEdges journal.families source target =
        (journal.families.fetch {} site).edgeCount source target +
          carriedEdges (journal.families.erase site) source target :=
      OrderedMap.total_fetch _ _ _ rfl
    have hnew : carriedEdges (OrderedMap.store {} journal.families site next) source target =
        next.edgeCount source target + carriedEdges (journal.families.erase site) source target :=
      OrderedMap.total_store _ _ _ rfl
    have hcount := h.counted source target
    rw [families_replaceSite, hnew]
    simp only [FunctionEdgeJournal.replaceSite, edgeCount_addPredecessors,
      edgeCount_removePredecessors]
    omega
  fingerprintA := tokens_store (fun site family => (stateToken sha256Bytes site family).1) next
      (congrArg Prod.fst (stateToken_empty sha256Bytes site)) h.fingerprintA
  fingerprintB := tokens_store (fun site family => (stateToken sha256Bytes site family).2) next
      (congrArg Prod.snd (stateToken_empty sha256Bytes site)) h.fingerprintB
  entries := by
    have hold : occupiedSites journal.families = occupied (journal.families.fetch {} site) +
        occupiedSites (journal.families.erase site) := OrderedMap.total_fetch _ _ _ rfl
    have hnew : occupiedSites (OrderedMap.store {} journal.families site next) =
        occupied next + occupiedSites (journal.families.erase site) :=
      OrderedMap.total_store _ _ _ rfl
    rw [families_replaceSite, hnew]
    exact countEntry_spec (h.entries.trans hold)

end FunctionEdgeJournal
end KatanaRecomp.Analysis
