import KatanaRecomp.Runtime.PrevalidatedWrites

/-! # Loops of single stores

Where no diagnostics listen, a store that lands in a region writes its bytes at
its place and tells the observer. A loop of such stores is a row of landings. Where the
landings share no byte, what each changes can be read off the memory before the
loop. -/
namespace KatanaRecomp.Runtime
open Lib ByteFormat
open ExecutableCodeTracker (GuestWriteEvent)

/-- A store and the place of its bytes. -/
abbrev Landing : Type := ScalarStore × MemoryPlace

/-- The bytes of two landings do not meet. -/
def Landing.Apart (left right : Landing) : Prop :=
  left.2.1 ≠ right.2.1 ∨ left.2.2 + left.1.width.bytes ≤ right.2.2 ∨
    right.2.2 + right.1.width.bytes ≤ left.2.2

namespace MemoryState
variable {memory : MemoryState} {mapped : NamedRegion}

def writeScalars : List ScalarStore → MemoryState → Except LookupError MemoryState
  | [], memory => .ok memory
  | store :: rest, memory =>
    match memory.writeScalar store with
    | .error error => .error error
    | .ok next => writeScalars rest next

/-- The events of a loop that say of every store whether it changes a byte. -/
inductive ExactEvents : MemoryState → List ScalarStore → List GuestWriteEvent → Prop
  | nil (memory : MemoryState) : ExactEvents memory [] []
  | cons {memory next : MemoryState} {store : ScalarStore} {rest : List ScalarStore}
      {changed : Bool} {events : List GuestWriteEvent}
      (hwrite : memory.writeScalar store = .ok next)
      (hchanged : changed = true ↔ next.storage ≠ memory.storage)
      (hrest : ExactEvents next rest events) :
      ExactEvents memory (store :: rest) (store.event changed :: events)

/-! ## Landings -/

def land (memory : MemoryState) (landing : Landing) : MemoryState :=
  memory.storeBytes landing.2.1 landing.2.2 landing.1.bytes

def landAll (memory : MemoryState) (landings : List Landing) : MemoryState :=
  landings.foldl land memory

def changedBy (memory : MemoryState) (landing : Landing) : Bool :=
  memory.readRange landing.2.1 landing.2.2 landing.1.width.bytes != landing.1.bytes

/-- The region of a store, and the place that the region gives it. -/
structure Lands (memory : MemoryState) (mapped : NamedRegion) (landing : Landing) : Prop where
  resolved : memory.map.resolve landing.1.address landing.1.width .write = .ok mapped
  linear : mapped.linear = true → landing.2 = (mapped.device, mapped.offset landing.1.address)
  projected : mapped.linear = false → memory.vramBacking mapped.device = some landing.2.1 ∧
    landing.2.2 = vram32BitToLinearOffset (mapped.offset landing.1.address)

/-- Nobody but the observer of guest writes listens. -/
def Quiet (memory : MemoryState) : Prop :=
  memory.accessObserversActive = false ∧ memory.guestMemoryAccessSink = false

theorem changedBy_iff (landing : Landing) :
    memory.changedBy landing = true ↔ (memory.land landing).storage ≠ memory.storage := by
  unfold changedBy land
  rw [bne_iff_ne, ← readRange_ne_iff]
  unfold ScalarStore.bytes
  rw [length_littleEndian]

theorem changedBy_eq_assemble (landing : Landing) : memory.changedBy landing =
      (assemble (8 * landing.1.width.bytes) 0
        (memory.readRange landing.2.1 landing.2.2 landing.1.width.bytes) != landing.1.value) := by
  rw [Bool.eq_iff_iff, changedBy_iff, assemble_bne_iff]
  rfl

/-- The observer hears a row of events, if there is an observer. -/
def hear (memory : MemoryState) (events : List GuestWriteEvent) : MemoryState :=
  memory.tell (if memory.guestWriteObserver.isSome then events.map .guestWrite else [])

theorem notifyScalar_quiet (memory : MemoryState) (mapped : NamedRegion) (store : ScalarStore)
    (changed : Bool) (haccess : memory.accessObserversActive = false) :
    memory.notifyScalar mapped store changed = memory.hear [store.event changed] := by
  unfold notifyScalar hear notifyGuestWrite
  rw [haccess, if_neg Bool.false_ne_true]
  dsimp only
  split
  · rfl
  · exact tell_nil.symm

theorem writeScalar_of_lands {landing : Landing} (hquiet : memory.Quiet)
    (hwritable : mapped.readWrite = true) (hlands : memory.Lands mapped landing) :
    memory.writeScalar landing.1 = .ok ((memory.land landing).hear
        [landing.1.event (if mapped.linear then memory.changedBy landing else true)]) := by
  obtain ⟨haccess, hsink⟩ := hquiet
  have hresolve : memory.resolveWritable landing.1.address landing.1.width = .ok mapped := by
    unfold resolveWritable
    rw [hlands.resolved]
    exact if_pos hwritable
  unfold writeScalar
  rw [hresolve]
  dsimp only
  cases hlinear : mapped.linear with
  | true =>
    have hplace := hlands.linear hlinear
    rw [if_pos rfl, if_pos rfl, notifyScalar_quiet (memory.storeBytes mapped.device _ _) mapped
      landing.1 _ haccess]
    have hdevice : mapped.device = landing.2.1 := congrArg Prod.fst hplace.symm
    have hoffset : mapped.offset landing.1.address = landing.2.2 := congrArg Prod.snd hplace.symm
    rw [hdevice, hoffset, changedBy_eq_assemble, hsink, Bool.or_false]
    unfold hear land
    by_cases hobserver : memory.guestWriteObserver.isSome = true
    · rw [if_pos hobserver]
    · have hnone : ¬ (memory.storeBytes landing.2.1 landing.2.2
          landing.1.bytes).guestWriteObserver.isSome = true := hobserver
      rw [if_neg hnone, if_neg hnone]
  | false =>
    obtain ⟨hbacking, hoffset⟩ := hlands.projected hlinear
    rw [hbacking]
    dsimp only
    rw [← hoffset, if_neg Bool.false_ne_true, if_neg Bool.false_ne_true,
      notifyScalar_quiet (memory.storeBytes _ _ _) mapped landing.1 true haccess]
    rfl

/-! ## Loops -/

def exactEvents : MemoryState → List Landing → List GuestWriteEvent
  | _, [] => []
  | memory, landing :: rest =>
    landing.1.event (memory.changedBy landing) :: exactEvents (memory.land landing) rest

theorem hear_hear (first second : List GuestWriteEvent) :
    (memory.hear first).hear second = memory.hear (first ++ second) := by
  unfold hear
  change (memory.tell _).tell (if memory.guestWriteObserver.isSome then _ else _) = _
  rw [tell_tell]
  split
  · rw [List.map_append]
  · rfl

theorem landAll_hear (heard : List GuestWriteEvent) (landings : List Landing) :
    ∀ memory : MemoryState,
      (memory.hear heard).landAll landings = (memory.landAll landings).hear heard := by
  induction landings with
  | nil => exact fun memory => rfl
  | cons landing rest ih => exact fun memory => ih (memory.land landing)

theorem exactEvents_hear (heard : List GuestWriteEvent) (landings : List Landing) :
    ∀ memory : MemoryState,
      exactEvents (memory.hear heard) landings = exactEvents memory landings := by
  induction landings with
  | nil => exact fun memory => rfl
  | cons landing rest ih =>
    exact fun memory => congrArg (landing.1.event (memory.changedBy landing) :: ·)
      (ih (memory.land landing))

theorem Lands.next {landing other : Landing} (h : memory.Lands mapped other)
    (heard : List GuestWriteEvent) : ((memory.land landing).hear heard).Lands mapped other :=
  ⟨h.resolved, h.linear, h.projected⟩

/-- The loop stores every landing; in a linear region its events are exact. -/
theorem writeScalars_of_lands (hwritable : mapped.readWrite = true) (landings : List Landing) :
    ∀ memory : MemoryState, memory.Quiet → (∀ landing ∈ landings, memory.Lands mapped landing) →
      writeScalars (landings.map (·.1)) memory = .ok ((memory.landAll landings).hear
          (if mapped.linear then exactEvents memory landings
          else landings.map fun landing => landing.1.event true)) := by
  induction landings with
  | nil =>
    intro memory hquiet hlands
    rw [List.map_nil, List.map_nil, show exactEvents memory [] = [] from rfl, ite_self]
    unfold hear
    rw [List.map_nil, ite_self, tell_nil]
    rfl
  | cons landing rest ih =>
    intro memory hquiet hlands
    have hfirst := writeScalar_of_lands hquiet hwritable (hlands landing List.mem_cons_self)
    have hrest := ih ((memory.land landing).hear
      [landing.1.event (if mapped.linear then memory.changedBy landing else true)]) hquiet
      fun other hother => (hlands other (List.mem_cons_of_mem _ hother)).next _
    rw [List.map_cons, writeScalars, hfirst]
    dsimp only
    rw [hrest, landAll_hear, exactEvents_hear, hear_hear]
    cases mapped.linear with
    | true => rfl
    | false => rfl

theorem exactEvents_spec (hwritable : mapped.readWrite = true) (landings : List Landing) :
    ∀ memory : MemoryState, memory.Quiet → (∀ landing ∈ landings, memory.Lands mapped landing) →
      ExactEvents memory (landings.map (·.1)) (exactEvents memory landings) := by
  induction landings with
  | nil => exact fun memory hquiet hlands => ExactEvents.nil memory
  | cons landing rest ih =>
    intro memory hquiet hlands
    refine ExactEvents.cons
      (writeScalar_of_lands hquiet hwritable (hlands landing List.mem_cons_self))
      (changedBy_iff landing) ?_
    have hrest := ih ((memory.land landing).hear
      [landing.1.event (if mapped.linear then memory.changedBy landing else true)]) hquiet
      fun other hother => (hlands other (List.mem_cons_of_mem _ hother)).next _
    rwa [exactEvents_hear] at hrest

/-! ## Landings that share no byte -/

theorem changedBy_land_of_apart {first landing : Landing} (hapart : first.Apart landing) :
    (memory.land first).changedBy landing = memory.changedBy landing := by
  have hrange : (memory.land first).readRange landing.2.1 landing.2.2 landing.1.width.bytes =
      memory.readRange landing.2.1 landing.2.2 landing.1.width.bytes := by
    refine List.map_congr_left fun index hindex => ?_
    have hindex : index < landing.1.width.bytes := List.mem_range.mp hindex
    unfold land
    by_cases hdevice : landing.2.1 = first.2.1
    · rw [hdevice, storeBytes_storage]
      split
      · rename_i hle
        have hbehind : first.1.bytes.length ≤ landing.2.2 + index - first.2.2 := by
          unfold ScalarStore.bytes
          rw [length_littleEndian]
          obtain hne | hbefore | hbehind := hapart
          · exact absurd hdevice.symm hne
          · omega
          · omega
        rw [List.getElem?_eq_none hbehind]
        rfl
      · rfl
    · exact storeBytes_storage_other hdevice _ _ _
  unfold changedBy
  rw [hrange]

theorem exactEvents_of_apart (landings : List Landing) :
    ∀ memory : MemoryState, landings.Pairwise Landing.Apart → exactEvents memory landings =
        landings.map fun landing => landing.1.event (memory.changedBy landing) := by
  induction landings with
  | nil => exact fun memory hapart => rfl
  | cons landing rest ih =>
    intro memory hapart
    obtain ⟨hfirst, hrest⟩ := List.pairwise_cons.mp hapart
    rw [exactEvents, ih _ hrest, List.map_cons]
    refine congrArg _ (List.map_congr_left fun other hother => ?_)
    rw [changedBy_land_of_apart (hfirst other hother)]

/-! ## What a bulk write is measured by -/

/-- A bulk write gives up and moves nothing, or the loop of the stores succeeds
and the bulk write leaves the memory of the loop with exact events for the
observer. In a linear region that is the end of the loop itself; elsewhere the
loop calls every store a change. -/
def StandsFor (memory : MemoryState) (address : BitVec 32) (stores : List ScalarStore)
    (result : Bool × MemoryState) : Prop := result = (false, memory) ∨
    ∃ last events, result.1 = true ∧ writeScalars stores memory = .ok last ∧
      ExactEvents memory stores events ∧
      result.2 = { last with delivered := (memory.hear events).delivered } ∧
      ((memory.placeAt address).isSome = true → result.2 = last) ∧
      ((memory.placeAt address).isSome = false →
        last.delivered = (memory.hear (stores.map fun store => store.event true)).delivered)

/-- The bulk write ends as the loop does, in all it leaves and reports. -/
def EqualsLoop (memory : MemoryState) (stores : List ScalarStore)
    (result : Bool × MemoryState) : Prop :=
  result.1 = true → writeScalars stores memory = .ok result.2

/-- The region is linear, nobody hears of the stores, or each of them changes a byte. -/
def FlagsAgree (memory : MemoryState) (address : BitVec 32) (stores : List ScalarStore) : Prop :=
  (memory.placeAt address).isSome = true ∨ memory.guestWriteObserver.isSome = false ∨
    ExactEvents memory stores (stores.map fun store => store.event true)

theorem ExactEvents.unique {stores : List ScalarStore} {events others : List GuestWriteEvent}
    (h : ExactEvents memory stores events) (hothers : ExactEvents memory stores others) :
    events = others := by
  induction h generalizing others with
  | nil memory =>
    cases hothers
    rfl
  | cons hwrite hchanged hrest ih =>
    cases hothers with
    | cons hwrite' hchanged' hrest' =>
      cases Except.ok.inj (hwrite.symm.trans hwrite')
      rw [Bool.eq_iff_iff.mpr (hchanged.trans hchanged'.symm), ih hrest']

/-- The bulk write stands for the loop, and equals it exactly where the flags agree. -/
def Compared (memory : MemoryState) (address : BitVec 32) (stores : List ScalarStore)
    (result : Bool × MemoryState) : Prop :=
  memory.StandsFor address stores result ∧
    (memory.EqualsLoop stores result ↔ (result.1 = true → memory.FlagsAgree address stores))

theorem StandsFor.compared {address : BitVec 32} {stores : List ScalarStore}
    {result : Bool × MemoryState} (h : memory.StandsFor address stores result) :
    memory.Compared address stores result := by
  refine ⟨h, forall_congr' fun hplan => ?_⟩
  obtain rfl | ⟨last, events, -, hloop, hexact, hresult, hlinear, hother⟩ := h
  · cases hplan
  unfold FlagsAgree
  rw [hloop, Except.ok.injEq]
  cases hplace : (memory.placeAt address).isSome with
  | true => exact ⟨fun _ => Or.inl rfl, fun _ => (hlinear hplace).symm⟩
  | false =>
    have htrue := hother hplace
    constructor
    · intro hsame
      cases hobserver : memory.guestWriteObserver.isSome with
      | false => exact Or.inr (Or.inl rfl)
      | true =>
        have hheard := congrArg delivered hsame
        rw [htrue, hresult] at hheard
        unfold hear tell at hheard
        rw [if_pos hobserver, if_pos hobserver] at hheard
        have hevents := List.map_injective_iff.mpr (fun a b hab => MemoryNotification.guestWrite.inj hab)
          (List.append_cancel_left hheard)
        exact Or.inr (Or.inr (hevents ▸ hexact))
    · rintro (hfalse | hnone | hevery)
      · cases hfalse
      · rw [hresult]
        unfold hear at htrue ⊢
        rw [hnone, if_neg Bool.false_ne_true] at htrue ⊢
        rw [← htrue]
      · rw [hresult, hexact.unique hevery, ← htrue]

theorem landAll_eq (landings : List Landing) : ∀ memory : MemoryState,
      ∃ storage, memory.landAll landings = memory.withStorage storage := by
  induction landings with
  | nil => exact fun memory => ⟨memory.storage, rfl⟩
  | cons landing rest ih =>
    intro memory
    obtain ⟨storage, hstorage⟩ := ih (memory.land landing)
    exact ⟨storage, hstorage⟩

theorem standsFor_of_landings {address : BitVec 32} {landings : List Landing}
    (hquiet : memory.Quiet) (hwritable : mapped.readWrite = true)
    (hlands : ∀ landing ∈ landings, memory.Lands mapped landing)
    (hplace : (memory.placeAt address).isSome = mapped.linear) :
    memory.StandsFor address (landings.map (·.1))
      (true, (memory.landAll landings).hear (exactEvents memory landings)) := by
  obtain ⟨storage, hstorage⟩ := landAll_eq landings memory
  refine Or.inr ⟨_, _, rfl, writeScalars_of_lands hwritable landings memory hquiet hlands,
    exactEvents_spec hwritable landings memory hquiet hlands, ?_, ?_, ?_⟩
  · rw [hstorage]
    rfl
  · intro hsome
    rw [hplace] at hsome
    rw [hsome]
    rfl
  · intro hnone
    rw [hplace] at hnone
    rw [hnone, hstorage, List.map_map]
    rfl

end MemoryState
end KatanaRecomp.Runtime
