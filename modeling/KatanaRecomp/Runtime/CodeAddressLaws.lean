import KatanaRecomp.Runtime.CodeAddress

/-! # The address caches are exact

Every interval in a cache is one on which the innermost mapping does not
change, so an answer from a cache is the answer of the mappings. The mappings
themselves are those of the open scopes, as long as the 64-bit tokens that tell
the scopes apart have not run around. -/
namespace KatanaRecomp.Runtime.CodeAddress

/-! ## Intervals -/

variable {address : BitVec 32}

theorem lookupCacheContains_iff {begin limit : Nat} {delta : BitVec 32}
    (hbegin : begin < guestAddressSpaceExtent) (hlimit : limit ≤ guestAddressSpaceExtent) :
    lookupCacheContains ⟨limit - begin, BitVec.ofNat 32 begin, delta⟩ address = true ↔
      begin ≤ address.toNat ∧ address.toNat < limit := by
  have haddress := address.isLt
  unfold guestAddressSpaceExtent at hbegin hlimit
  unfold lookupCacheContains
  dsimp only
  rw [decide_eq_true_iff, BitVec.toNat_sub, BitVec.toNat_ofNat, Nat.mod_eq_of_lt hbegin]
  rcases Nat.lt_or_ge address.toNat begin with hlt | hge
  · -- Below the interval the difference wraps to at least `2^32 - begin`.
    rw [Nat.mod_eq_of_lt (by omega)]
    omega
  · have hwrap : 2 ^ 32 - begin + address.toNat = address.toNat - begin + 2 ^ 32 := by omega
    rw [hwrap, Nat.add_mod_right, Nat.mod_eq_of_lt (by omega)]
    omega

/-- An interval answers for the mappings: on it the innermost mapping adds its delta. -/
def Exact (reverse : Bool) (mappings : List CodeAddressMapping) (interval : LookupInterval) : Prop :=
  ∀ address, lookupCacheContains interval address = true →
    address + interval.delta = innermost reverse mappings address

variable {reverse : Bool}

theorem exact_empty {mappings : List CodeAddressMapping}
    {interval : LookupInterval} (hempty : interval.extent = 0) :
    Exact reverse mappings interval := by
  intro address h
  unfold lookupCacheContains at h
  rw [hempty] at h
  simp at h

variable {m : CodeAddressMapping}

theorem covers_iff : m.covers reverse address = true ↔ (m.start reverse).toNat ≤ address.toNat ∧
      address.toNat < (m.start reverse).toNat + m.extent.toNat := by
  simp [CodeAddressMapping.covers, contains]

/-- An interval around the address that meets none of the given mappings. -/
structure Gap (reverse : Bool) (address : BitVec 32) (mappings : List CodeAddressMapping)
    (interval : Nat × Nat) : Prop where
  lower : interval.1 ≤ address.toNat
  upper : address.toNat < interval.2
  clear : ∀ m ∈ mappings, ∀ x : BitVec 32, interval.1 ≤ x.toNat → x.toNat < interval.2 →
    m.covers reverse x = false

theorem constrainGap_gap {done : List CodeAddressMapping}
    {interval : Nat × Nat} (h : Gap reverse address done interval)
    (hm : m.covers reverse address = false) :
    Gap reverse address (done ++ [m]) (constrainGap reverse address interval m) ∧
      interval.1 ≤ (constrainGap reverse address interval m).1 ∧
      (constrainGap reverse address interval m).2 ≤ interval.2 := by
  have houtside : ¬ ((m.start reverse).toNat ≤ address.toNat ∧
      address.toNat < (m.start reverse).toNat + m.extent.toNat) := by
    rw [← covers_iff, hm]
    simp
  have hlower := h.lower
  have hupper := h.upper
  unfold constrainGap
  dsimp only
  have hclear : ∀ interval' : Nat × Nat, interval.1 ≤ interval'.1 → interval'.2 ≤ interval.2 →
      (interval'.2 ≤ (m.start reverse).toNat ∨
        (m.start reverse).toNat + m.extent.toNat ≤ interval'.1) →
      ∀ m' ∈ done ++ [m], ∀ x : BitVec 32, interval'.1 ≤ x.toNat → x.toNat < interval'.2 →
        m'.covers reverse x = false := by
    intro interval' hfirst hsecond hside m' hm' x hx hx'
    rcases List.mem_append.mp hm' with hm' | hm'
    · exact h.clear m' hm' x (by omega) (by omega)
    · rw [List.mem_singleton.mp hm', Bool.eq_false_iff, ne_eq, covers_iff]
      omega
  split
  · rename_i hbelow
    refine ⟨⟨?_, ?_, hclear _ ?_ ?_ ?_⟩, ?_, ?_⟩ <;> dsimp only <;> omega
  · split
    · refine ⟨⟨?_, ?_, hclear _ ?_ ?_ ?_⟩, ?_, ?_⟩ <;> dsimp only <;> omega
    · omega

theorem foldl_constrainGap (todo : List CodeAddressMapping) :
    ∀ {done : List CodeAddressMapping} {interval : Nat × Nat}, Gap reverse address done interval →
      (∀ m ∈ todo, m.covers reverse address = false) →
      Gap reverse address (done ++ todo) (todo.foldl (constrainGap reverse address) interval) ∧
        interval.1 ≤ (todo.foldl (constrainGap reverse address) interval).1 ∧
        (todo.foldl (constrainGap reverse address) interval).2 ≤ interval.2 := by
  induction todo with
  | nil =>
    intro done interval h _
    rw [List.append_nil]
    exact ⟨h, le_rfl, le_rfl⟩
  | cons m rest ih =>
    intro done interval h hnone
    obtain ⟨hstep, hlower, hupper⟩ := constrainGap_gap h (hnone m (by simp))
    obtain ⟨hrest, hlower', hupper'⟩ := ih hstep fun m' hm' => hnone m' (by simp [hm'])
    refine ⟨?_, hlower.trans hlower', hupper'.trans hupper⟩
    simpa using hrest

/-! ## The innermost mapping -/

/-- The newest mapping over an address, with the newer ones that are not over it. -/
theorem newest_cases (reverse : Bool) (mappings : List CodeAddressMapping) (address : BitVec 32) :
    (∃ older m newer, mappings = older ++ m :: newer ∧ m.covers reverse address = true ∧
      (∀ m' ∈ newer, m'.covers reverse address = false) ∧
      mappings.reverse.find? (fun m => m.covers reverse address) = some m ∧
      (mappings.reverse.takeWhile fun m => !m.covers reverse address).reverse = newer) ∨
    ((∀ m' ∈ mappings, m'.covers reverse address = false) ∧
      mappings.reverse.find? (fun m => m.covers reverse address) = none ∧
      (mappings.reverse.takeWhile fun m => !m.covers reverse address).reverse = mappings) := by
  cases hfind : mappings.reverse.find? fun m => m.covers reverse address with
  | some m =>
    obtain ⟨hm, front, back, hsplit, hfront⟩ := List.find?_eq_some_iff_append.mp hfind
    refine .inl ⟨back.reverse, m, front.reverse, ?_, hm, ?_, rfl, ?_⟩
    · have := congrArg List.reverse hsplit
      simpa using this
    · intro m' hm'
      simpa using hfront m' (by simpa using hm')
    · rw [hsplit, List.takeWhile_append_of_pos hfront, List.takeWhile_cons_of_neg (by simp [hm]),
        List.append_nil]
  | none =>
    rw [List.find?_eq_none] at hfind
    refine .inr ⟨?_, rfl, ?_⟩
    · intro m' hm'
      simpa using hfind m' (by simpa using hm')
    · rw [List.takeWhile_eq_self_iff.mpr, List.reverse_reverse]
      intro m' hm'
      simpa using hfind m' hm'

theorem find_newest {older newer : List CodeAddressMapping} (hm : m.covers reverse address = true)
    (hnewer : ∀ m' ∈ newer, m'.covers reverse address = false) :
    (older ++ m :: newer).reverse.find? (fun m => m.covers reverse address) = some m := by
  rw [List.find?_eq_some_iff_append]
  refine ⟨hm, newer.reverse, older.reverse, by simp, ?_⟩
  intro m' hm'
  simpa using hnewer m' (by simpa using hm')

/-- The stored delta is the one of the mapping, modulo the address space. -/
theorem ofInt_delta (reverse : Bool) (m : CodeAddressMapping) (address : BitVec 32) :
    address + BitVec.ofInt 32 (m.delta reverse) =
      if reverse then address + (m.sourceStart - m.runtimeStart)
      else address + (m.runtimeStart - m.sourceStart) := by
  have hsub : ∀ a b : BitVec 32, BitVec.ofInt 32 ((a.toNat : Int) - b.toNat) = a - b := by
    intro a b
    rw [Int.sub_eq_add_neg, BitVec.ofInt_add, BitVec.ofInt_neg, BitVec.sub_eq_add_neg]
    simp
  cases reverse with
  | true => simp [CodeAddressMapping.delta, hsub]
  | false => simp [CodeAddressMapping.delta, hsub]

/-- Around the address the computed interval is exact, and the address is in it. -/
theorem computedInterval_exact {mappings : List CodeAddressMapping}
    (hfits : ∀ m ∈ mappings, (m.start reverse).toNat + m.extent.toNat ≤ guestAddressSpaceExtent)
    (address : BitVec 32) : Exact reverse mappings (computedInterval reverse mappings address) ∧
      lookupCacheContains (computedInterval reverse mappings address) address = true := by
  have haddress : address.toNat < guestAddressSpaceExtent := address.isLt
  unfold computedInterval
  dsimp only
  rcases newest_cases reverse mappings address with
    ⟨older, m, newer, hsplit, hm, hnewer, hfind, hnewerEq⟩ | ⟨hnone, hfind, hnewerEq⟩
  · rw [hfind, hnewerEq]
    have hcovers := covers_iff.mp hm
    have hlimit := hfits m (by simp [hsplit])
    have hgap : Gap reverse address [] ((m.start reverse).toNat,
        (m.start reverse).toNat + m.extent.toNat) := ⟨hcovers.1, hcovers.2, by simp⟩
    obtain ⟨hclear, hlower, hupper⟩ := foldl_constrainGap newer hgap hnewer
    rw [List.nil_append] at hclear
    dsimp only at hlower hupper ⊢
    generalize newer.foldl (constrainGap reverse address) _ = interval at hclear hlower hupper ⊢
    have hbegin : interval.1 < guestAddressSpaceExtent := lt_of_le_of_lt hclear.lower haddress
    have hend : interval.2 ≤ guestAddressSpaceExtent := hupper.trans hlimit
    refine ⟨?_, (lookupCacheContains_iff hbegin hend).mpr ⟨hclear.lower, hclear.upper⟩⟩
    intro x hx
    obtain ⟨hx, hx'⟩ := (lookupCacheContains_iff hbegin hend).mp hx
    have hmx : m.covers reverse x = true := covers_iff.mpr ⟨by omega, by omega⟩
    unfold innermost
    rw [hsplit, find_newest hmx fun m' hm' => hclear.clear m' hm' x hx hx']
    exact ofInt_delta reverse m x
  · rw [hfind, hnewerEq]
    have hgap : Gap reverse address [] (0, guestAddressSpaceExtent) :=
      ⟨Nat.zero_le _, haddress, by simp⟩
    obtain ⟨hclear, -, hupper⟩ := foldl_constrainGap mappings hgap hnone
    rw [List.nil_append] at hclear
    dsimp only at hupper ⊢
    generalize mappings.foldl (constrainGap reverse address) _ = interval at hclear hupper ⊢
    have hbegin : interval.1 < guestAddressSpaceExtent := lt_of_le_of_lt hclear.lower haddress
    refine ⟨?_, (lookupCacheContains_iff hbegin hupper).mpr ⟨hclear.lower, hclear.upper⟩⟩
    intro x hx
    obtain ⟨hx, hx'⟩ := (lookupCacheContains_iff hbegin hupper).mp hx
    have hfindx : mappings.reverse.find? (fun m => m.covers reverse x) = none := by
      rw [List.find?_eq_none]
      intro m hm
      simp [hclear.clear m (by simpa using hm) x hx hx']
    unfold innermost
    rw [hfindx]
    simp

/-! ## The state -/

/-- A mapping that the constructor accepted. -/
structure CodeAddressMapping.Accepted (m : CodeAddressMapping) : Prop where
  source : m.sourceStart.toNat + m.extent.toNat ≤ guestAddressSpaceExtent
  runtime : m.runtimeStart.toNat + m.extent.toNat ≤ guestAddressSpaceExtent

theorem validate_ok (h : validateCodeAddressMapping m = .ok ()) : m.Accepted := by
  unfold validateCodeAddressMapping at h
  split at h
  · cases h
  split at h
  · cases h
  split at h
  · cases h
  · exact ⟨by omega, by omega⟩

theorem CodeAddressMapping.Accepted.fits (h : m.Accepted)
    (reverse : Bool) : (m.start reverse).toNat + m.extent.toNat ≤ guestAddressSpaceExtent := by
  cases reverse with
  | true => exact h.runtime
  | false => exact h.source

/-- Every cached interval answers for the active mappings. -/
structure CacheOk (s : CodeAddressState) : Prop where
  accepted : ∀ m ∈ s.mappings, m.Accepted
  flag : s.mappingActive = !s.active.isEmpty
  recent : ∀ reverse, Exact reverse s.mappings (s.recent reverse)
  cache : ∀ reverse i, Exact reverse s.mappings (s.cache reverse i)

variable {s : CodeAddressState}

theorem CacheOk.update (h : CacheOk s)
    {recent : LookupInterval} (hrecent : Exact reverse s.mappings recent)
    {cache : Fin 64 → LookupInterval} (hcache : ∀ i, Exact reverse s.mappings (cache i)) :
    CacheOk { s with
      recent := Function.update s.recent reverse recent
      cache := Function.update s.cache reverse cache } := by
  refine ⟨h.accepted, h.flag, ?_, ?_⟩
  · intro direction
    change Exact direction s.mappings (Function.update s.recent reverse recent direction)
    by_cases hd : direction = reverse
    · subst hd
      rw [Function.update_self]
      exact hrecent
    · rw [Function.update_of_ne hd]
      exact h.recent direction
  · intro direction i
    change Exact direction s.mappings (Function.update s.cache reverse cache direction i)
    by_cases hd : direction = reverse
    · subst hd
      rw [Function.update_self]
      exact hcache i
    · rw [Function.update_of_ne hd]
      exact h.cache direction i

/-- What a lookup answers, and that it leaves the scopes alone. -/
structure Looked (s : CodeAddressState) (reverse : Bool) (address : BitVec 32)
    (result : BitVec 32 × CodeAddressState) : Prop where
  answer : result.1 = innermost reverse s.mappings address
  cacheOk : CacheOk result.2
  active : result.2.active = s.active
  nextToken : result.2.nextToken = s.nextToken
  scopes : result.2.scopes = s.scopes

theorem lookupCodeAddressSlow_looked (h : CacheOk s) (reverse : Bool)
    (address : BitVec 32) : Looked s reverse address (lookupCodeAddressSlow reverse s address) := by
  unfold lookupCodeAddressSlow
  dsimp only
  split
  · rename_i hhit
    have hcached := h.cache reverse (cacheIndex address)
    have hkeep := h.update hcached (h.cache reverse)
    rw [Function.update_eq_self] at hkeep
    exact ⟨hcached address hhit, hkeep, rfl, rfl, rfl⟩
  · obtain ⟨hexact, hcontains⟩ := computedInterval_exact
      (fun m hm => (h.accepted m hm).fits reverse) address
    refine ⟨hexact address hcontains, h.update hexact ?_, rfl, rfl, rfl⟩
    intro i
    by_cases hi : i = cacheIndex address
    · rw [hi, Function.update_self]
      exact hexact
    · rw [Function.update_of_ne hi]
      exact h.cache reverse i

theorem lookupCodeAddress_looked (h : CacheOk s) (reverse : Bool)
    (address : BitVec 32) : Looked s reverse address (lookupCodeAddress reverse s address) := by
  unfold lookupCodeAddress
  split
  · rename_i hhit
    exact ⟨h.recent reverse address hhit, h, rfl, rfl, rfl⟩
  · exact lookupCodeAddressSlow_looked h reverse address

theorem translateCodeAddress_looked (h : CacheOk s) (reverse : Bool)
    (address : BitVec 32) : Looked s reverse address (translateCodeAddress reverse s address) := by
  unfold translateCodeAddress
  split
  · rename_i hoff
    have hempty : s.active = [] := by
      have hflag := h.flag
      rw [Bool.not_eq_true'] at hoff
      rw [hoff] at hflag
      simpa using hflag.symm
    refine ⟨?_, h, rfl, rfl, rfl⟩
    simp [innermost, CodeAddressState.mappings, hempty]
  · exact lookupCodeAddress_looked h reverse address

theorem translateCodeAddressInline_looked (h : CacheOk s) (reverse : Bool) (address : BitVec 32) :
    Looked s reverse address (translateCodeAddressInline reverse s address) := by
  unfold translateCodeAddressInline
  split
  · rename_i hhit
    exact ⟨h.recent reverse address hhit, h, rfl, rfl, rfl⟩
  · exact translateCodeAddress_looked h reverse address

/-- Emptied caches are exact for whatever is active; without mappings the full identity is. -/
theorem invalidate_cacheOk (haccepted : ∀ m ∈ s.mappings, m.Accepted)
    (hflag : s.mappingActive = !s.active.isEmpty) :
    CacheOk (invalidateCodeAddressLookupCache s) := by
  refine ⟨haccepted, hflag, ?_, fun reverse i => exact_empty rfl⟩
  intro reverse
  cases hactive : s.active with
  | cons entry rest =>
    refine exact_empty ?_
    simp [invalidateCodeAddressLookupCache, hflag, hactive]
  | nil =>
    intro address _
    simp [invalidateCodeAddressLookupCache, CodeAddressState.mappings, innermost, hactive]

/-! ## The scopes -/

/-- The token of the scope of that number, before the counter runs around. -/
def tokenOf (scope : Nat) : BitVec 64 := BitVec.ofNat 64 (scope + 1)

theorem tokenOf_injective {a b : Nat} (ha : a + 1 < 2 ^ 64) (hb : b + 1 < 2 ^ 64)
    (h : tokenOf a = tokenOf b) : a = b := by
  have heq := congrArg BitVec.toNat h
  unfold tokenOf at heq
  rw [BitVec.toNat_ofNat, BitVec.toNat_ofNat, Nat.mod_eq_of_lt ha, Nat.mod_eq_of_lt hb] at heq
  omega

def activeOf (entry : Nat × CodeAddressMapping) : ActiveCodeAddressMapping :=
  ⟨tokenOf entry.1, entry.2⟩

/-- The state holds exactly the open scopes, under their tokens. -/
structure Tracks (scopes : Scopes) (s : CodeAddressState) : Prop where
  active : s.active = scopes.live.map activeOf
  nextToken : s.nextToken = tokenOf scopes.constructed
  length : s.scopes.length = scopes.constructed
  open_ : ∀ k, k ∈ scopes.live.map Prod.fst → s.scopes[k]? = some (some (tokenOf k))
  closed : ∀ k token, s.scopes[k]? = some (some token) → k ∈ scopes.live.map Prod.fst
  issued : ∀ k ∈ scopes.live.map Prod.fst, k < scopes.constructed
  distinct : (scopes.live.map Prod.fst).Nodup

variable {scopes : Scopes}

theorem Tracks.mappings (h : Tracks scopes s) : s.mappings = scopes.live.map Prod.snd := by
  rw [CodeAddressState.mappings, h.active, List.map_map]
  rfl

theorem eraseP_eq_filter {α : Type} {p : α → Bool} {l : List α}
    (h : l.Pairwise fun a b => ¬ (p a = true ∧ p b = true)) :
    l.eraseP p = l.filter fun a => !p a := by
  induction l with
  | nil => rfl
  | cons a rest ih =>
    obtain ⟨hhead, htail⟩ := List.pairwise_cons.mp h
    cases ha : p a with
    | true =>
      rw [List.eraseP_cons_of_pos ha, List.filter_cons_of_neg (by simp [ha])]
      symm
      rw [List.filter_eq_self]
      intro b hb
      have := hhead b hb
      simp only [ha, true_and] at this
      simpa using this
    | false =>
      rw [List.eraseP_cons_of_neg (by simp [ha]), List.filter_cons_of_pos (by simp [ha]), ih htail]

variable (h : Tracks scopes s)
include h

theorem Tracks.construct
    {mapping : CodeAddressMapping} (hvalid : validateCodeAddressMapping mapping = .ok ())
    (hbound : scopes.constructed + 1 < 2 ^ 64) :
    Tracks (scopes.step (.construct mapping)) (construct s mapping) := by
  have htoken : tokenOf scopes.constructed ≠ 0 := by
    intro hzero
    have := congrArg BitVec.toNat hzero
    unfold tokenOf at this
    rw [BitVec.toNat_ofNat, Nat.mod_eq_of_lt hbound] at this
    simp at this
  have hallocate : allocateMappingToken s.nextToken =
      (tokenOf scopes.constructed, tokenOf (scopes.constructed + 1)) := by
    unfold allocateMappingToken
    rw [h.nextToken, if_neg htoken]
    congr 1
    exact (BitVec.ofNat_add (scopes.constructed + 1) 1).symm
  have hstep : scopes.step (.construct mapping) =
      { live := scopes.live ++ [(scopes.constructed, mapping)]
        constructed := scopes.constructed + 1 } := by
    simp only [Scopes.step, hvalid]
  have hstate : CodeAddress.construct s mapping = invalidateCodeAddressLookupCache
      { s with
        active := s.active ++ [⟨tokenOf scopes.constructed, mapping⟩]
        nextToken := tokenOf (scopes.constructed + 1)
        mappingActive := true
        scopes := s.scopes ++ [some (tokenOf scopes.constructed)] } := by
    simp only [CodeAddress.construct, hvalid, hallocate]
  rw [hstep, hstate]
  refine ⟨?_, rfl, ?_, ?_, ?_, ?_, ?_⟩
  · simp [invalidateCodeAddressLookupCache, h.active, activeOf]
  · simp [invalidateCodeAddressLookupCache, h.length]
  · intro k hk
    simp only [List.map_append, List.map_cons, List.map_nil, List.mem_append,
      List.mem_singleton] at hk
    change (s.scopes ++ [some (tokenOf scopes.constructed)])[k]? = _
    rcases hk with hk | rfl
    · rw [List.getElem?_append_left (by rw [h.length]; exact h.issued k hk)]
      exact h.open_ k hk
    · rw [List.getElem?_append_right (by rw [h.length]), h.length]
      simp
  · intro k token hk
    change (s.scopes ++ [some (tokenOf scopes.constructed)])[k]? = _ at hk
    rw [List.map_append, List.mem_append]
    rcases Nat.lt_or_ge k scopes.constructed with hlt | hge
    · rw [List.getElem?_append_left (by rw [h.length]; exact hlt)] at hk
      exact .inl (h.closed k token hk)
    · have hlen := (List.getElem?_eq_some_iff.mp hk).1
      simp [h.length] at hlen
      exact .inr (by simp; omega)
  · intro k hk
    simp only [List.map_append, List.map_cons, List.map_nil, List.mem_append,
      List.mem_singleton] at hk
    rcases hk with hk | rfl
    · have := h.issued k hk
      change k < scopes.constructed + 1
      omega
    · exact Nat.lt_succ_self _
  · change ((scopes.live ++ [(scopes.constructed, mapping)]).map Prod.fst).Nodup
    rw [List.map_append, List.nodup_append]
    refine ⟨h.distinct, by simp, ?_⟩
    intro a ha b hb
    simp only [List.map_cons, List.map_nil, List.mem_singleton] at hb
    have := h.issued a ha
    omega

/-- Destroying a scope that is not open changes nothing. -/
theorem Tracks.destroy_closed {scope : Nat} (hscope : scope ∉ scopes.live.map Prod.fst) :
    scopes.step (.destroy scope) = scopes ∧ destroy s scope = s := by
  constructor
  · have hkeep : (scopes.live.filter fun entry => entry.1 ≠ scope) = scopes.live := by
      rw [List.filter_eq_self]
      intro entry hentry
      have hne : entry.1 ≠ scope := by
        rintro rfl
        exact hscope (List.mem_map_of_mem hentry)
      simp [hne]
    simp only [Scopes.step]
    rw [hkeep]
  · unfold CodeAddress.destroy
    split
    · rename_i token htoken
      exact absurd (h.closed scope token htoken) hscope
    · rfl

section
variable (hbound : scopes.constructed < 2 ^ 64)
include hbound

/-- Among the open scopes a token belongs to one only, so the erased entry is the scope's own. -/
theorem Tracks.eraseP_token
    {scope : Nat} (hscope : scope < scopes.constructed) :
    (s.active.reverse.eraseP fun entry => entry.token = tokenOf scope).reverse =
      (scopes.live.filter fun entry => entry.1 ≠ scope).map activeOf := by
  have hown : ∀ entry ∈ scopes.live, tokenOf entry.1 = tokenOf scope → entry.1 = scope := by
    intro entry hentry htoken
    have hissued := h.issued entry.1 (List.mem_map_of_mem hentry)
    exact tokenOf_injective (by omega) (by omega) htoken
  have hdistinct : scopes.live.Pairwise fun a b => a.1 ≠ b.1 := by
    have := h.distinct
    rwa [List.nodup_iff_pairwise_ne, List.pairwise_map] at this
  have hpair : s.active.reverse.Pairwise fun a b =>
      ¬ (decide (a.token = tokenOf scope) = true ∧ decide (b.token = tokenOf scope) = true) := by
    rw [List.pairwise_reverse, h.active, List.pairwise_map]
    refine hdistinct.imp_of_mem ?_
    intro a b ha hb hne hboth
    have ha' := hown a ha (of_decide_eq_true hboth.2)
    have hb' := hown b hb (of_decide_eq_true hboth.1)
    exact hne (ha'.trans hb'.symm)
  rw [eraseP_eq_filter hpair, ← List.filter_reverse, List.reverse_reverse, h.active,
    List.filter_map]
  congr 1
  refine List.filter_congr ?_
  intro entry hentry
  by_cases heq : entry.1 = scope
  · simp [activeOf, heq]
  · have hne : tokenOf entry.1 ≠ tokenOf scope := fun htoken => heq (hown entry hentry htoken)
    simp [activeOf, heq, hne]

theorem Tracks.destroy_open {scope : Nat}
    (hscope : scope ∈ scopes.live.map Prod.fst) : destroy s scope = invalidateCodeAddressLookupCache
      { s with
        active := (scopes.live.filter fun entry => entry.1 ≠ scope).map activeOf
        mappingActive := !((scopes.live.filter fun entry => entry.1 ≠ scope).map activeOf).isEmpty
        scopes := s.scopes.set scope none } := by
  have hany : (s.active.any fun entry => entry.token = tokenOf scope) = true := by
    obtain ⟨entry, hentry, rfl⟩ := List.mem_map.mp hscope
    rw [List.any_eq_true]
    refine ⟨activeOf entry, ?_, by simp [activeOf]⟩
    rw [h.active]
    exact List.mem_map_of_mem hentry
  have herase := h.eraseP_token hbound (h.issued scope hscope)
  unfold CodeAddress.destroy
  rw [h.open_ scope hscope]
  dsimp only
  rw [if_pos hany, herase]

theorem Tracks.destroy (scope : Nat) : Tracks (scopes.step (.destroy scope)) (destroy s scope) := by
  by_cases hscope : scope ∈ scopes.live.map Prod.fst
  · rw [h.destroy_open hbound hscope]
    have hkeys : ∀ k, k ∈ (scopes.live.filter fun entry => entry.1 ≠ scope).map Prod.fst ↔
        k ∈ scopes.live.map Prod.fst ∧ k ≠ scope := by
      intro k
      simp only [List.mem_map, List.mem_filter, decide_eq_true_eq]
      constructor
      · rintro ⟨entry, ⟨hentry, hne⟩, rfl⟩
        exact ⟨⟨entry, hentry, rfl⟩, hne⟩
      · rintro ⟨⟨entry, hentry, rfl⟩, hne⟩
        exact ⟨entry, ⟨hentry, hne⟩, rfl⟩
    refine ⟨rfl, h.nextToken, ?_, ?_, ?_, ?_, ?_⟩
    · change (s.scopes.set scope none).length = _
      rw [List.length_set]
      exact h.length
    · intro k hk
      obtain ⟨hopen, hne⟩ := (hkeys k).mp hk
      change (s.scopes.set scope none)[k]? = _
      rw [List.getElem?_set_ne hne.symm]
      exact h.open_ k hopen
    · intro k token hk
      change (s.scopes.set scope none)[k]? = _ at hk
      refine (hkeys k).mpr ?_
      by_cases heq : k = scope
      · subst heq
        have hlen : k < s.scopes.length := by
          rw [h.length]
          exact h.issued k hscope
        rw [List.getElem?_set_self hlen] at hk
        cases hk
      · rw [List.getElem?_set_ne (Ne.symm heq)] at hk
        exact ⟨h.closed k token hk, heq⟩
    · intro k hk
      exact h.issued k ((hkeys k).mp hk).1
    · exact h.distinct.sublist (List.filter_sublist.map Prod.fst)
  · obtain ⟨hscopes, hstate⟩ := h.destroy_closed hscope
    rw [hscopes, hstate]
    exact h

end

omit h

/-! ## Runs -/

/-- The state of a run against the scopes of the same run. -/
structure Faithful (scopes : Scopes) (s : CodeAddressState) : Prop where
  tracks : Tracks scopes s
  cacheOk : CacheOk s

theorem Faithful.init : Faithful {} {} := by
  refine ⟨⟨rfl, rfl, rfl, by simp, by simp, by simp, by simp⟩, ⟨by simp [CodeAddressState.mappings],
    rfl, ?_, fun reverse i => exact_empty rfl⟩⟩
  intro reverse address _
  simp [CodeAddressState.mappings, innermost]

theorem Looked.faithful {result : BitVec 32 × CodeAddressState}
    (hlook : Looked s reverse address result) (h : Faithful scopes s) :
    Faithful scopes result.2 := by
  obtain ⟨hactive, hnext, hlength, hopen, hclosed, hissued, hdistinct⟩ := h.tracks
  refine ⟨⟨?_, ?_, ?_, ?_, ?_, hissued, hdistinct⟩, hlook.cacheOk⟩
  · rw [hlook.active, hactive]
  · rw [hlook.nextToken, hnext]
  · rw [hlook.scopes, hlength]
  · rw [hlook.scopes]
    exact hopen
  · rw [hlook.scopes]
    exact hclosed

theorem Faithful.step {scopes : Scopes} {s : CodeAddressState} (h : Faithful scopes s)
    (action : Action) (hbound : (scopes.step action).constructed < 2 ^ 64) :
    Faithful (scopes.step action) (step s action) := by
  cases action with
  | construct mapping =>
    cases hvalid : validateCodeAddressMapping mapping with
    | error e =>
      have hscopes : scopes.step (.construct mapping) = scopes := by
        simp only [Scopes.step, hvalid]
      have hstate : CodeAddress.step s (.construct mapping) = s := by
        simp only [CodeAddress.step, CodeAddress.construct, hvalid]
      rw [hscopes, hstate]
      exact h
    | ok u =>
      have hnext : scopes.constructed + 1 < 2 ^ 64 := by
        simpa only [Scopes.step, hvalid] using hbound
      refine ⟨h.tracks.construct hvalid hnext, ?_⟩
      simp only [CodeAddress.step, CodeAddress.construct, hvalid]
      refine invalidate_cacheOk ?_ (by simp)
      intro m hm
      simp only [CodeAddressState.mappings, List.map_append, List.mem_append, List.map_cons,
        List.map_nil, List.mem_singleton] at hm
      rcases hm with hm | rfl
      · exact h.cacheOk.accepted m hm
      · exact validate_ok hvalid
  | destroy scope =>
    refine ⟨h.tracks.destroy hbound scope, ?_⟩
    by_cases hscope : scope ∈ scopes.live.map Prod.fst
    · change CacheOk (CodeAddress.destroy s scope)
      rw [h.tracks.destroy_open hbound hscope]
      refine invalidate_cacheOk ?_ rfl
      intro m hm
      refine h.cacheOk.accepted m ?_
      rw [h.tracks.mappings]
      simp only [CodeAddressState.mappings, List.map_map] at hm
      exact (List.filter_sublist.map _).subset hm
    · change CacheOk (CodeAddress.destroy s scope)
      rw [(h.tracks.destroy_closed hscope).2]
      exact h.cacheOk
  | translate reverse address =>
    exact (translateCodeAddress_looked h.cacheOk reverse address).faithful h
  | translateInline reverse address =>
    exact (translateCodeAddressInline_looked h.cacheOk reverse address).faithful h

/-- The number of constructions only grows. -/
theorem Scopes.step_constructed (scopes : Scopes) (action : Action) :
    scopes.constructed ≤ (scopes.step action).constructed := by
  cases action with
  | construct mapping =>
    simp only [Scopes.step]
    split
    · exact le_rfl
    · exact Nat.le_succ _
  | destroy scope => exact le_rfl
  | translate reverse address => exact le_rfl
  | translateInline reverse address => exact le_rfl

theorem Faithful.run (actions : List Action) (hbound : (Scopes.run actions).constructed < 2 ^ 64) :
    Faithful (Scopes.run actions) (run {} actions) := by
  induction actions using List.reverseRecOn with
  | nil => exact Faithful.init
  | append_singleton actions action ih =>
    unfold Scopes.run CodeAddress.run at *
    rw [List.foldl_append, List.foldl_append] at *
    have hbefore := lt_of_le_of_lt (Scopes.step_constructed _ action) hbound
    exact (ih hbefore).step action hbound

/-- After every run of constructions, destructions and lookups the four translations apply the
innermost mapping that is still open, whatever the caches hold. -/
theorem translate_innermost (actions : List Action)
    (hbound : (Scopes.run actions).constructed < 2 ^ 64) (address : BitVec 32) :
    (relocateCodeAddress (run {} actions) address).1 =
        (Scopes.run actions).translate false address ∧
      (unrelocateCodeAddress (run {} actions) address).1 =
        (Scopes.run actions).translate true address ∧
      (relocateCodeAddressInline (run {} actions) address).1 =
        (Scopes.run actions).translate false address ∧
      (unrelocateCodeAddressInline (run {} actions) address).1 =
        (Scopes.run actions).translate true address := by
  have h := Faithful.run actions hbound
  have hplain := fun reverse => (translateCodeAddress_looked h.cacheOk reverse address).answer
  have hinline := fun reverse =>
    (translateCodeAddressInline_looked h.cacheOk reverse address).answer
  rw [h.tracks.mappings] at hplain hinline
  exact ⟨hplain false, hplain true, hinline false, hinline true⟩

/-- Two scopes over the same source range, and the newer one closed first. -/
theorem translate_innermost_nested :
    let outer : CodeAddressMapping := ⟨0x8c010000, 0x0c010000, 0x1000⟩
    let inner : CodeAddressMapping := ⟨0x8c010800, 0x0c700800, 0x100⟩
    let actions := [Action.construct outer, .construct inner, .translate false 0x8c010810,
      .destroy 1]
    (Scopes.run actions).constructed < 2 ^ 64 ∧
      (relocateCodeAddressInline (run {} actions) 0x8c010810).1 = 0x0c010810 := by
  intro outer inner actions
  have hbound : (Scopes.run actions).constructed < 2 ^ 64 := by decide
  refine ⟨hbound, ?_⟩
  rw [(translate_innermost actions hbound 0x8c010810).2.2.1]
  decide

/-! ## When the tokens run around -/

/-- `count` scopes that are opened and closed again behind a scope that stays open. -/
def churn (kept passing : CodeAddressMapping) (count : Nat) : List Action :=
  .construct kept :: (List.range count).flatMap fun k =>
    [.construct passing, .destroy (k + 1)]

theorem churn_scopes {kept passing : CodeAddressMapping}
    (hkept : validateCodeAddressMapping kept = .ok ())
    (hpassing : validateCodeAddressMapping passing = .ok ()) (count : Nat) :
    Scopes.run (churn kept passing count) = ⟨[(0, kept)], count + 1⟩ := by
  unfold Scopes.run churn
  induction count with
  | zero => simp [Scopes.step, hkept]
  | succ n ih =>
    rw [List.range_succ, List.flatMap_append, ← List.cons_append, List.foldl_append, ih]
    simp [Scopes.step, hpassing]

def outerScope : CodeAddressMapping := ⟨0, 0x1000, 0x1000⟩

def innerScope : CodeAddressMapping := ⟨0, 0x2000, 0x1000⟩

/-- With `count + 2 = 2^64` the last scope gets the token of the first one, which is still open,
and closing the first erases the last. -/
def tokenWrap (count : Nat) : List Action :=
  churn outerScope outerScope count ++ [.construct innerScope, .destroy 0]

theorem tokenWrap_state (hactive : s.active = [⟨1, outerScope⟩])
    (hnext : s.nextToken = 0) (hfirst : s.scopes[0]? = some (some 1)) :
    destroy (construct s innerScope) 0 = invalidateCodeAddressLookupCache
      { construct s innerScope with
        active := [⟨1, outerScope⟩]
        mappingActive := true
        scopes := (construct s innerScope).scopes.set 0 none } := by
  have hinner : validateCodeAddressMapping innerScope = .ok () := by decide
  have hopened : (construct s innerScope).active = [⟨1, outerScope⟩, ⟨1, innerScope⟩] ∧
      (construct s innerScope).scopes = s.scopes ++ [some 1] := by
    simp [construct, hinner, allocateMappingToken, hnext, hactive, invalidateCodeAddressLookupCache]
  have hscope : (construct s innerScope).scopes[0]? = some (some 1) := by
    rw [hopened.2, List.getElem?_append_left (List.getElem?_eq_some_iff.mp hfirst).1]
    exact hfirst
  unfold destroy
  rw [hscope]
  simp [hopened.1]

theorem relocate_wrapped {count : Nat} (hcount : count + 2 = 2 ^ 64) :
    (relocateCodeAddress (run {} (tokenWrap count)) 0).1 = 0x1000 ∧
      (Scopes.run (tokenWrap count)).translate false 0 = 0x2000 := by
  have houter : validateCodeAddressMapping outerScope = .ok () := by decide
  have hinner : validateCodeAddressMapping innerScope = .ok () := by decide
  have hscopes := churn_scopes houter houter count
  have hbound : (Scopes.run (churn outerScope outerScope count)).constructed < 2 ^ 64 := by
    rw [hscopes]
    change count + 1 < 2 ^ 64
    omega
  have hfaithful := Faithful.run (churn outerScope outerScope count) hbound
  rw [hscopes] at hfaithful
  have hrun : run {} (tokenWrap count) =
      destroy (construct (run {} (churn outerScope outerScope count)) innerScope) 0 := by
    unfold tokenWrap run
    rw [List.foldl_append]
    rfl
  constructor
  · rw [hrun]
    generalize run {} (churn outerScope outerScope count) = s at hfaithful
    have hnext : s.nextToken = 0 := by
      rw [hfaithful.tracks.nextToken]
      unfold tokenOf
      rw [hcount]
      rfl
    rw [tokenWrap_state hfaithful.tracks.active hnext (hfaithful.tracks.open_ 0 (by simp))]
    have hok : CacheOk (invalidateCodeAddressLookupCache
        { construct s innerScope with
          active := [⟨1, outerScope⟩]
          mappingActive := true
          scopes := (construct s innerScope).scopes.set 0 none }) := by
      refine invalidate_cacheOk ?_ rfl
      intro m hm
      rw [List.mem_singleton.mp hm]
      exact validate_ok houter
    refine (translateCodeAddress_looked hok false 0).answer.trans ?_
    change innermost false [outerScope] 0 = 0x1000
    decide
  · unfold tokenWrap
    unfold Scopes.run at hscopes ⊢
    rw [List.foldl_append, hscopes]
    simp [Scopes.step, hinner, Scopes.translate]
    decide

theorem relocate_tokenWrap : (relocateCodeAddress (run {} (tokenWrap (2 ^ 64 - 2))) 0).1 = 0x1000 ∧
      (Scopes.run (tokenWrap (2 ^ 64 - 2))).translate false 0 = 0x2000 :=
  relocate_wrapped (by norm_num)

end KatanaRecomp.Runtime.CodeAddress
