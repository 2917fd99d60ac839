import Mathlib

/-! # Relocated code addresses

Loaded modules run at other addresses than they were translated for. Scopes
activate mappings between the two address ranges, and a lookup applies the
innermost active mapping that contains the address. Two levels of caches keep
intervals with one delta each: the last interval used, which generated code
reads inline, and a table of 64. Opening or closing a scope empties them. -/
namespace KatanaRecomp.Runtime.CodeAddress

structure CodeAddressMapping where
  sourceStart : BitVec 32
  runtimeStart : BitVec 32
  extent : BitVec 32

structure ActiveCodeAddressMapping where
  token : BitVec 64
  mapping : CodeAddressMapping

/-- `[begin, begin + extent)`, without wrapping; an extent of zero is an empty entry. -/
structure LookupInterval where
  extent : Nat := 0
  begin : BitVec 32 := 0
  delta : BitVec 32 := 0

def guestAddressSpaceExtent : Nat := 2 ^ 32

/-- The thread's lookup state. The tables have one side for each direction: `true` is the
reverse one, from runtime to source addresses. `scopes` are the tokens the scope objects hold,
in the order of their construction, and `none` for the destroyed ones. -/
structure CodeAddressState where
  active : List ActiveCodeAddressMapping := []
  nextToken : BitVec 64 := 1
  mappingActive : Bool := false
  recent : Bool → LookupInterval := fun _ => { extent := guestAddressSpaceExtent }
  cache : Bool → Fin 64 → LookupInterval := fun _ _ => {}
  scopes : List (Option (BitVec 64)) := []

inductive MappingError
  | emptyExtent | sourceOverflow | runtimeOverflow
  deriving DecidableEq

def validateCodeAddressMapping (mapping : CodeAddressMapping) : Except MappingError Unit :=
  if mapping.extent = 0 then .error .emptyExtent
  else if mapping.sourceStart.toNat + mapping.extent.toNat > guestAddressSpaceExtent then
    .error .sourceOverflow
  else if mapping.runtimeStart.toNat + mapping.extent.toNat > guestAddressSpaceExtent then
    .error .runtimeOverflow
  else .ok ()

/-! ## Lookups -/

def lookupCacheContains (cached : LookupInterval) (address : BitVec 32) : Bool :=
  (address - cached.begin).toNat < cached.extent

def contains (address start extent : BitVec 32) : Bool :=
  start.toNat ≤ address.toNat && address.toNat < start.toNat + extent.toNat

/-- The start of a mapping on the side a lookup comes from. -/
def CodeAddressMapping.start (reverse : Bool) (mapping : CodeAddressMapping) : BitVec 32 :=
  if reverse then mapping.runtimeStart else mapping.sourceStart

/-- `std::int64_t` difference of the two starts. -/
def CodeAddressMapping.delta (reverse : Bool) (mapping : CodeAddressMapping) : Int :=
  if reverse then (mapping.sourceStart.toNat : Int) - mapping.runtimeStart.toNat
  else (mapping.runtimeStart.toNat : Int) - mapping.sourceStart.toNat

def CodeAddressMapping.covers (reverse : Bool) (address : BitVec 32)
    (mapping : CodeAddressMapping) : Bool := contains address (mapping.start reverse) mapping.extent

/-- `constrain_gap`: the interval is cut at a mapping that does not contain the address. -/
def constrainGap (reverse : Bool) (address : BitVec 32) (interval : Nat × Nat)
    (mapping : CodeAddressMapping) : Nat × Nat :=
  let start := (mapping.start reverse).toNat
  let mappingEnd := start + mapping.extent.toNat
  if mappingEnd ≤ address.toNat then (max interval.1 mappingEnd, interval.2)
  else if start > address.toNat then (interval.1, min interval.2 start)
  else interval

def cacheIndex (address : BitVec 32) : Fin 64 :=
  Fin.ofNat 64 ((address.toNat >>> 12) ^^^ (address.toNat >>> 20))

/-- The interval a miss computes: the newest mapping that contains the address, cut at the newer
ones, or the gap between all of them. -/
def computedInterval (reverse : Bool) (active : List CodeAddressMapping) (address : BitVec 32) :
    LookupInterval :=
  let newestFirst := active.reverse
  let newer := (newestFirst.takeWhile fun m => !m.covers reverse address).reverse
  let start : (Nat × Nat) × Int :=
    match newestFirst.find? fun m => m.covers reverse address with
    | some m =>
      (((m.start reverse).toNat, (m.start reverse).toNat + m.extent.toNat), m.delta reverse)
    | none => ((0, guestAddressSpaceExtent), 0)
  let interval := newer.foldl (constrainGap reverse address) start.1
  { extent := interval.2 - interval.1
    begin := BitVec.ofNat 32 interval.1
    delta := BitVec.ofInt 32 start.2 }

def CodeAddressState.mappings (s : CodeAddressState) : List CodeAddressMapping :=
  s.active.map ActiveCodeAddressMapping.mapping

def lookupCodeAddressSlow (reverse : Bool) (s : CodeAddressState) (address : BitVec 32) :
    BitVec 32 × CodeAddressState :=
  let cached := s.cache reverse (cacheIndex address)
  if lookupCacheContains cached address then
    (address + cached.delta, { s with recent := Function.update s.recent reverse cached })
  else
    let cached := computedInterval reverse s.mappings address
    (address + cached.delta,
      { s with
        recent := Function.update s.recent reverse cached
        cache := Function.update s.cache reverse
          (Function.update (s.cache reverse) (cacheIndex address) cached) })

def lookupCodeAddress (reverse : Bool) (s : CodeAddressState) (address : BitVec 32) :
    BitVec 32 × CodeAddressState :=
  if lookupCacheContains (s.recent reverse) address then
    (address + (s.recent reverse).delta, s)
  else lookupCodeAddressSlow reverse s address

/-- `relocate_code_address` and `unrelocate_code_address`. -/
def translateCodeAddress (reverse : Bool) (s : CodeAddressState) (address : BitVec 32) :
    BitVec 32 × CodeAddressState :=
  if !s.mappingActive then (address, s) else lookupCodeAddress reverse s address

def relocateCodeAddress := translateCodeAddress false

def unrelocateCodeAddress := translateCodeAddress true

/-- The inline forms try the shared interval before they call. -/
def translateCodeAddressInline (reverse : Bool) (s : CodeAddressState) (address : BitVec 32) :
    BitVec 32 × CodeAddressState :=
  if lookupCacheContains (s.recent reverse) address then
    (address + (s.recent reverse).delta, s)
  else translateCodeAddress reverse s address

def relocateCodeAddressInline := translateCodeAddressInline false

def unrelocateCodeAddressInline := translateCodeAddressInline true

/-! ## Scopes -/

def allocateMappingToken (next : BitVec 64) : BitVec 64 × BitVec 64 :=
  if next = 0 then (next + 1, next + 1 + 1) else (next, next + 1)

def invalidateCodeAddressLookupCache (s : CodeAddressState) : CodeAddressState :=
  { s with
    cache := fun reverse i => { s.cache reverse i with extent := 0 }
    recent := fun _ => { extent := if s.mappingActive then 0 else guestAddressSpaceExtent } }

/-- The constructor of `ScopedCodeAddressMapping`; it throws before it changes anything. -/
def construct (s : CodeAddressState) (mapping : CodeAddressMapping) : CodeAddressState :=
  match validateCodeAddressMapping mapping with
  | .error _ => s
  | .ok _ =>
    let (token, next) := allocateMappingToken s.nextToken
    invalidateCodeAddressLookupCache
      { s with
        active := s.active ++ [⟨token, mapping⟩]
        nextToken := next
        mappingActive := true
        scopes := s.scopes ++ [some token] }

/-- The destructor: the newest entry with the object's token goes. -/
def destroy (s : CodeAddressState) (scope : Nat) : CodeAddressState :=
  match s.scopes[scope]? with
  | some (some token) =>
    let s := { s with scopes := s.scopes.set scope none }
    if s.active.any fun entry => entry.token = token then
      let active := (s.active.reverse.eraseP fun entry => entry.token = token).reverse
      invalidateCodeAddressLookupCache { s with active, mappingActive := !active.isEmpty }
    else s
  | _ => s

inductive Action
  | construct (mapping : CodeAddressMapping)
  | destroy (scope : Nat)
  | translate (reverse : Bool) (address : BitVec 32)
  | translateInline (reverse : Bool) (address : BitVec 32)

def step (s : CodeAddressState) : Action → CodeAddressState
  | .construct mapping => construct s mapping
  | .destroy scope => destroy s scope
  | .translate reverse address => (translateCodeAddress reverse s address).2
  | .translateInline reverse address => (translateCodeAddressInline reverse s address).2

def run (s : CodeAddressState) (actions : List Action) : CodeAddressState := actions.foldl step s

/-! ## What the scopes mean

The scopes by themselves, without tokens and caches: each accepted construction gets the next
number, and its mapping is active until the scope of that number is destroyed. -/

structure Scopes where
  live : List (Nat × CodeAddressMapping) := []
  constructed : Nat := 0

def Scopes.step (scopes : Scopes) : Action → Scopes
  | .construct mapping =>
    match validateCodeAddressMapping mapping with
    | .error _ => scopes
    | .ok _ =>
      { live := scopes.live ++ [(scopes.constructed, mapping)]
        constructed := scopes.constructed + 1 }
  | .destroy scope => { scopes with live := scopes.live.filter fun entry => entry.1 ≠ scope }
  | _ => scopes

def Scopes.run (actions : List Action) : Scopes := actions.foldl Scopes.step {}

/-- The address under the newest mapping of the list that contains it. -/
def innermost (reverse : Bool) (mappings : List CodeAddressMapping) (address : BitVec 32) :
    BitVec 32 :=
  match mappings.reverse.find? fun m => m.covers reverse address with
  | some m => if reverse then address + (m.sourceStart - m.runtimeStart)
    else address + (m.runtimeStart - m.sourceStart)
  | none => address

def Scopes.translate (scopes : Scopes) (reverse : Bool) (address : BitVec 32) : BitVec 32 :=
  innermost reverse (scopes.live.map Prod.snd) address

end KatanaRecomp.Runtime.CodeAddress
