import KatanaRecomp.Runtime.ScifRuns

/-! # The serial port over whole runs

In every state of a run the port's event, its status bits and its FIFOs agree,
no byte is lost or reordered on the way from the transmit register to the line,
and the snapshot goes through the handoff, as long as the bytes sent since the
last reset can be counted with 32 bits. -/
namespace KatanaRecomp.Runtime.Scif
open Lib ByteFormat Scheduler

/-! ## Accounts of the bytes -/

inductive Fate
  | waiting | sent | cleared
  deriving DecidableEq

/-- Every byte the transmit register accepted since the last reset of the port, in order, with
what has become of it. -/
abbrev Ledger := List (Byte × Fate)

/-- The oldest waiting byte goes out. -/
def Ledger.send : Ledger → Ledger
  | [] => []
  | (byte, .waiting) :: rest => (byte, .sent) :: rest
  | entry :: rest => entry :: Ledger.send rest

/-- A FIFO reset drops the waiting bytes. -/
def Ledger.clear (ledger : Ledger) : Ledger :=
  ledger.map fun entry => if entry.2 = .waiting then (entry.1, .cleared) else entry

/-- The accepted bytes without the cleared ones. -/
def Ledger.kept (ledger : Ledger) : List Byte :=
  (ledger.filter fun entry => entry.2 ≠ .cleared).map Prod.fst

/-- What an action does to the accounts: a byte written while the FIFO takes bytes is accepted,
a frame that ends sends one, and a FIFO reset clears them. -/
def Ledger.follow (ledger : Ledger) (s : Port) (action : Action) : Ledger :=
  match s.phase, action with
  | .loop a, .advanceRound =>
    match loopHead s.scheduler a with
    | .fire .. => ledger.send
    | .returns .. => ledger
  | .loop _, _ => ledger
  | _, .write offset value width =>
    if offset.toNat = 0x0C ∧ width = .byte ∧ s.device.acceptsTransmit then
      ledger ++ [(s.device.lineByte (value.setWidth 8), .waiting)]
    else if offset.toNat = 0x18 ∧ width = .halfword ∧ value &&& 0x04 ≠ 0 then ledger.clear
    else ledger
  | _, .reset => []
  | _, _ => ledger

/-- The accounts of a run. -/
def Ledger.ofRun : Port → Ledger → List Action → Ledger
  | _, ledger, [] => ledger
  | s, ledger, action :: rest => Ledger.ofRun (step s action) (ledger.follow s action) rest

/-- The settled entries come first, and the rest of the ledger is the FIFO. -/
def Accounts (ledger : Ledger) (sent waiting : List Byte) : Prop :=
  ∃ done : Ledger, ledger = done ++ waiting.map (fun byte => (byte, Fate.waiting)) ∧
    (∀ entry ∈ done, entry.2 ≠ .waiting) ∧
    (done.filter fun entry => entry.2 = .sent).map Prod.fst = sent

variable {ledger : Ledger} {waiting : List Byte} {sent : List Byte}

theorem Accounts.kept (h : Accounts ledger sent waiting) : ledger.kept = sent ++ waiting := by
  obtain ⟨done, rfl, hdone, rfl⟩ := h
  unfold Ledger.kept
  rw [List.filter_append, List.map_append]
  congr 1
  · congr 1
    refine List.filter_congr ?_
    intro entry hentry
    have hnot := hdone entry hentry
    rcases entry with ⟨byte, fate⟩
    cases fate <;> simp_all
  · rw [List.filter_eq_self.mpr]
    · rw [List.map_map]
      exact List.map_id' waiting
    · intro entry hentry
      obtain ⟨byte, -, rfl⟩ := List.mem_map.mp hentry
      rfl

theorem Accounts.nil : Accounts [] [] [] := ⟨[], rfl, by simp, rfl⟩

theorem Accounts.accept (h : Accounts ledger sent waiting) (byte : Byte) :
    Accounts (ledger ++ [(byte, .waiting)]) sent (waiting ++ [byte]) := by
  obtain ⟨done, rfl, hdone, hsent⟩ := h
  exact ⟨done, by simp, hdone, hsent⟩

theorem Ledger.send_append {done : Ledger} (hdone : ∀ entry ∈ done, entry.2 ≠ .waiting)
    (rest : Ledger) : Ledger.send (done ++ rest) = done ++ Ledger.send rest := by
  induction done with
  | nil => rfl
  | cons entry done ih =>
    have hhead := hdone entry (by simp)
    have htail := ih fun e he => hdone e (by simp [he])
    rcases entry with ⟨byte, fate⟩
    cases fate with
    | waiting => exact absurd rfl hhead
    | sent => simp only [List.cons_append, Ledger.send, htail]
    | cleared => simp only [List.cons_append, Ledger.send, htail]

theorem Accounts.send (h : Accounts ledger sent waiting) :
    Accounts ledger.send (sent ++ waiting.take 1) waiting.tail := by
  obtain ⟨done, rfl, hdone, hsent⟩ := h
  rw [Ledger.send_append hdone]
  cases waiting with
  | nil => exact ⟨done, rfl, hdone, by simpa using hsent⟩
  | cons byte rest =>
    refine ⟨done ++ [(byte, .sent)], by simp [Ledger.send], ?_, ?_⟩
    · intro entry hentry
      rcases List.mem_append.mp hentry with hentry | hentry
      · exact hdone entry hentry
      · rw [List.mem_singleton.mp hentry]
        simp
    · simp [hsent]

theorem Accounts.clear (h : Accounts ledger sent waiting) : Accounts ledger.clear sent [] := by
  obtain ⟨done, rfl, hdone, hsent⟩ := h
  have hkeep : Ledger.clear done = done := by
    unfold Ledger.clear
    rw [List.map_congr_left (g := id), List.map_id]
    intro entry hentry
    simp [hdone entry hentry]
  have hdrop : Ledger.clear (done ++ waiting.map fun byte => (byte, Fate.waiting)) =
      done ++ waiting.map fun byte => (byte, Fate.cleared) := by
    unfold Ledger.clear at hkeep ⊢
    rw [List.map_append, hkeep, List.map_map]
    rfl
  refine ⟨_, by rw [hdrop, List.map_nil, List.append_nil], ?_, ?_⟩
  · intro entry hentry
    rcases List.mem_append.mp hentry with hentry | hentry
    · exact hdone entry hentry
    · obtain ⟨byte, -, rfl⟩ := List.mem_map.mp hentry
      simp
  · rw [List.filter_append, List.map_append, hsent]
    simp

theorem Accounts.write {scif : Sh4Scif}
    (h : Accounts ledger scif.transmittedBytes scif.transmitFifo) (offset value : BitVec 32)
    (width : MemoryAccessWidth) : Accounts
      (if offset.toNat = 0x0C ∧ width = .byte ∧ scif.acceptsTransmit then
        ledger ++ [(scif.lineByte (value.setWidth 8), .waiting)]
      else if offset.toNat = 0x18 ∧ width = .halfword ∧ value &&& 0x04 ≠ 0 then ledger.clear
      else ledger)
      (callerTraffic scif (.write offset value width)).1
      (callerTraffic scif (.write offset value width)).2 := by
  dsimp only [callerTraffic]
  split
  · exact h.accept _
  split
  · exact h.clear
  · exact h

variable {s : Port}

/-- The accounts follow the traffic. -/
theorem Accounts.follow
    (h : Accounts ledger s.device.transmittedBytes s.device.transmitFifo) (action : Action) :
    Accounts (ledger.follow s action) (traffic s action).1 (traffic s action).2 := by
  unfold Ledger.follow traffic
  cases hphase : s.phase with
  | loop a =>
    cases action with
    | advanceRound =>
      dsimp only
      cases loopHead s.scheduler a with
      | fire key a' scheduler => exact h.send
      | returns result scheduler => exact h
    | _ => exact h
  | idle =>
    cases action with
    | write offset value width => exact h.write offset value width
    | reset => exact Accounts.nil
    | _ => exact h
  | callback a =>
    cases action with
    | write offset value width => exact h.write offset value width
    | reset => exact Accounts.nil
    | _ => exact h

/-! ## The codec -/

/-- What the payload carries of a snapshot. -/
def Sh4ScifSnapshot.cleared (state : Sh4ScifSnapshot) : Sh4ScifSnapshot :=
  { state with
    transmitEvent := none
    transmitEventDeadline := none
    transmitEventRehydrationPending := false }

theorem checked_rest {known : Sh4ScifSnapshot → Prop} {write' : Sh4ScifSnapshot → List Byte}
    {good : Sh4ScifSnapshot → Prop} {result : Except HandoffError Unit}
    {next : ScifStateReader Sh4ScifSnapshot} (bad : Sh4ScifSnapshot → Prop)
    (hbad : ∀ state, known state → (result ≠ .ok () ↔ bad state))
    (hnext : ParsesRest known next write' good) :
    ParsesRest known (checked result >>= fun _ => next) write'
      (fun state => ¬ bad state ∧ good state) := by
  cases result with
  | ok _ =>
    have hread : (checked (.ok ()) >>= fun _ => next) =
        (reject False HandoffError.truncated >>= fun _ => next) := rfl
    rw [hread]
    refine .check bad ?_ fun _ => hnext
    intro state hknown
    rw [← hbad state hknown]
    simp
  | error e =>
    have hread : (checked (.error e) >>= fun _ => next) = (reject True e >>= fun _ => next) := rfl
    rw [hread]
    refine .check bad ?_ fun _ => hnext
    intro state hknown
    rw [← hbad state hknown]
    simp

/-- A snapshot as the decoder leaves it. -/
structure Decodable (state : Sh4ScifSnapshot) : Prop where
  transmitFifo : state.transmitFifo.length < 2 ^ 32
  receiveFifo : state.receiveFifo.length < 2 ^ 32
  transmittedBytes : state.transmittedBytes.length < 2 ^ 32
  shape : validateScifPortableShape state false = .ok ()
  noEvent : state.cleared = state

theorem readU8_parses : Parses readU8 (littleEndian 1) (fun _ => True) := .word _ rfl
theorem readU16_parses : Parses readU16 (littleEndian 2) (fun _ => True) := .word _ rfl
theorem readU32_parses : Parses readU32 (littleEndian 4) (fun _ => True) := .word _ rfl
theorem readU64_parses : Parses readU64 (littleEndian 8) (fun _ => True) := .word _ rfl

theorem readState_parses : Parses readState writeState Decodable := by
  have hmagic : Parses expectMagic (fun _ => sh4ScifStateMagic) (fun _ => True) :=
    (Parses.take HandoffError.truncated sh4ScifStateMagic.length).constant .invalidMagic rfl
  have hversion : Parses expectVersion (fun _ => littleEndian 4 contractVersion) (fun _ => True) :=
    readU32_parses.constant .unknownVersion trivial
  have hvector := Parses.byteVector HandoffError.truncated
  refine .of_rest
    (hmagic.bind (fun _ => ()) fun _ _ =>
    hversion.bind (fun _ => ()) fun _ _ =>
    readU64_parses.bind Sh4ScifSnapshot.schedulerCycle fun cycle _ =>
    hvector.bind (fun state => state.transmitFifo) fun transmit _ =>
    hvector.bind (fun state => state.receiveFifo) fun receive _ =>
    hvector.bind (fun state => state.transmittedBytes) fun sent _ =>
    readU16_parses.bind (fun state => state.mode) fun mode _ =>
    readU8_parses.bind (fun state => state.bitRate) fun bitRate _ =>
    readU16_parses.bind (fun state => state.control) fun control _ =>
    readU16_parses.bind (fun state => state.status) fun status _ =>
    readU16_parses.bind (fun state => state.statusLastRead) fun lastRead _ =>
    readU16_parses.bind (fun state => state.fifoControl) fun fifoControl _ =>
    readU16_parses.bind (fun state => state.port) fun port _ =>
    readU16_parses.bind (fun state => state.lineStatus) fun lineStatus _ =>
    checked_rest (fun state => validateScifPortableShape state.cleared false ≠ .ok ()) ?_ <|
    .pure (fun state : Sh4ScifSnapshot => state.cleared = state) fun state => ?_) ?_ ?_
  · rintro state ⟨rfl, rfl, rfl, rfl, rfl, rfl, rfl, rfl, rfl, rfl, rfl, rfl, -⟩
    rfl
  · constructor
    · rintro ⟨⟨rfl, rfl, rfl, rfl, rfl, rfl, rfl, rfl, rfl, rfl, rfl, rfl, -⟩, hcleared⟩
      rw [← hcleared]
      rfl
    · rintro rfl
      exact ⟨⟨rfl, rfl, rfl, rfl, rfl, rfl, rfl, rfl, rfl, rfl, rfl, rfl, rfl, rfl, trivial⟩, rfl⟩
  · intro state
    simp [writeState]
  · intro state
    constructor
    · rintro ⟨-, -, -, htransmit, hreceive, hsent, -, -, -, -, -, -, -, -, hshape, hcleared⟩
      rw [not_not, hcleared] at hshape
      exact ⟨htransmit, hreceive, hsent, hshape, hcleared⟩
    · rintro ⟨htransmit, hreceive, hsent, hshape, hcleared⟩
      refine ⟨trivial, trivial, trivial, htransmit, hreceive, hsent, trivial, trivial, trivial,
        trivial, trivial, trivial, trivial, trivial, ?_, hcleared⟩
      rw [not_not, hcleared]
      exact hshape

/-! ## The checks -/

theorem derivedStatus_self {scif : Sh4Scif} (h : Derived scif) :
    derivedStatus scif.status scif.fifoControl scif.transmitFifo scif.receiveFifo
      scif.transmitFifo.isEmpty = scif.status := by
  refine BitVec.eq_of_getLsbD_eq ?_
  intro i hi
  rw [getLsbD_derivedStatus _ _ _ _ _ i hi]
  split
  · rename_i h5
    rw [h5, h.transmitEmpty]
  split
  · rename_i h6
    rw [h6, h.transmitEnd]
  split
  · rename_i h0
    rw [h0, h.receiveReady]
  split
  · rename_i h1
    rw [h1, h.receiveFull]
  · rfl

variable {state : Sh4ScifSnapshot}

/-- The status conditions of the checks, for a snapshot of a port in order. -/
theorem expectedStatus_self (h : Derived state.toSh4Scif) :
    state.expectedStatus = state.status := by
  have hidle : (!state.requiresEvent && state.transmitFifo.isEmpty) =
      state.transmitFifo.isEmpty := by
    unfold Sh4Scif.requiresEvent
    cases state.transmitFifo.isEmpty <;> simp
  unfold Sh4ScifSnapshot.expectedStatus
  rw [hidle]
  exact derivedStatus_self h

theorem not_badRegisters (h : Registers state.toSh4Scif)
    (hpending : state.transmitEventRehydrationPending = false) : ¬ state.BadRegisters := by
  obtain ⟨htransmit, hreceive, hmode, hcontrol, hstatus, hlast, hfifo, hport, hline⟩ := h
  unfold Within at hmode hcontrol hstatus hlast hfifo hport hline
  unfold Sh4ScifSnapshot.BadRegisters
  simp only [hmode, hcontrol, hstatus, hlast, hfifo, hport, hline, hpending, ne_eq, not_true,
    Bool.false_eq_true, and_false, or_false, not_or]
  omega

/-- A snapshot that is in order but for the event it does not carry. -/
theorem cleared_checks (hregisters : Registers state.toSh4Scif)
    (hderived : Derived state.toSh4Scif) (hcleared : state.cleared = state) :
    validateScifPortableShape state false = .ok () ∧
      validateStateRestore state state.schedulerCycle = .ok () := by
  have hevent : state.transmitEvent = none := by
    rw [← hcleared]
    rfl
  have hdeadline : state.transmitEventDeadline = none := by
    rw [← hcleared]
    rfl
  have hpending : state.transmitEventRehydrationPending = false := by
    rw [← hcleared]
    rfl
  have hbad := not_badRegisters hregisters hpending
  have hany : state.anyEvent = false := by
    simp [Sh4ScifSnapshot.anyEvent, hevent, hdeadline, hpending]
  have hoverdue : ¬ state.Overdue := by
    rintro ⟨deadline, hmem, -⟩
    rw [hdeadline] at hmem
    cases hmem
  have hstatus := expectedStatus_self hderived
  constructor
  · unfold validateScifPortableShape
    simp [hbad, hany, hoverdue, hstatus]
  · unfold validateStateRestore
    simp [hbad, hany, hoverdue, hstatus, hevent, hpending]

/-- The encoder's check passes on every settled port. -/
theorem Settled.shape (hs : Settled s) : validateScifPortableShape s.snapshot true = .ok () := by
  have hcycle : s.snapshot.schedulerCycle.toNat = s.scheduler.currentCycle := by
    have hbound := hs.scheduler.cycle
    unfold Scheduler.uint64Max at hbound
    change (BitVec.ofNat 64 s.scheduler.currentCycle).toNat = _
    rw [BitVec.toNat_ofNat, Nat.mod_eq_of_lt (by omega)]
  have hbad : ¬ s.snapshot.BadRegisters := not_badRegisters hs.registers hs.pending
  have hstatus := expectedStatus_self (show Derived s.snapshot.toSh4Scif from hs.derived)
  have harmed : s.snapshot.transmitEvent.isSome = s.snapshot.requiresEvent := hs.armed
  have hpending : s.snapshot.transmitEventRehydrationPending = false := hs.pending
  have hdeadline : s.snapshot.transmitEventDeadline.isSome = s.snapshot.transmitEvent.isSome ∧
      ¬ s.snapshot.Overdue := by
    rcases hs.event with hquiet | ⟨key, hsending⟩
    · have hnone : s.snapshot.transmitEventDeadline = none := hquiet.deadline
      have hevent : s.snapshot.transmitEvent = none := hquiet.event
      refine ⟨by rw [hnone, hevent], ?_⟩
      rintro ⟨deadline, hmem, -⟩
      rw [hnone] at hmem
      cases hmem
    · have hsome : s.snapshot.transmitEventDeadline = some key.deadline := hsending.deadline
      have hevent : s.snapshot.transmitEvent = some key.id := hsending.event
      refine ⟨by rw [hsome, hevent]; rfl, ?_⟩
      rintro ⟨deadline, hmem, hle⟩
      rw [hsome] at hmem
      cases hmem
      have hahead := hsending.ahead
      omega
  unfold validateScifPortableShape
  rw [if_neg hbad, if_neg, if_neg, if_neg hdeadline.2, hstatus, if_neg (by simp)]
  · rintro ⟨hrequires, hany⟩
    unfold Sh4ScifSnapshot.anyEvent at hany
    rw [hdeadline.1, harmed, hpending] at hany
    simp [hrequires] at hany
  · rintro ⟨-, hrequires, hmissing⟩
    rw [hrequires] at harmed
    rw [harmed] at hdeadline
    rw [harmed, Option.isNone_iff_eq_none] at hmissing
    rcases hmissing with hmissing | hmissing
    · exact hmissing (.inl rfl)
    · rw [hmissing] at hdeadline
      cases hdeadline.1

/-- The handoff of a settled port: the snapshot is encoded, the decoder gives it back without the
event, and the restoring port takes it. -/
theorem Settled.handoff (hs : Settled s) (hsent : s.device.transmittedBytes.length < 2 ^ 32) :
    ∃ bytes, encodeSh4ScifState s.snapshot = .ok bytes ∧
      decodeSh4ScifState bytes = .ok s.snapshot.cleared ∧
      validateStateRestore s.snapshot.cleared s.snapshot.schedulerCycle = .ok () := by
  have htransmit : s.device.transmitFifo.length ≤ 16 := hs.registers.transmitFifo
  have hreceive : s.device.receiveFifo.length ≤ 16 := hs.registers.receiveFifo
  have hregisters : Registers s.snapshot.cleared.toSh4Scif := { hs.registers with }
  have hderived : Derived s.snapshot.cleared.toSh4Scif := { hs.derived with }
  obtain ⟨hshape, hrestore⟩ := cleared_checks hregisters hderived rfl
  have hencode : encodeSh4ScifState s.snapshot = .ok (writeState s.snapshot) := by
    have hlengths : ¬ (s.snapshot.transmitFifo.length > uint32Max ∨
        s.snapshot.receiveFifo.length > uint32Max ∨
        s.snapshot.transmittedBytes.length > uint32Max) := by
      change ¬ (s.device.transmitFifo.length > uint32Max ∨
        s.device.receiveFifo.length > uint32Max ∨ s.device.transmittedBytes.length > uint32Max)
      unfold uint32Max
      omega
    unfold encodeSh4ScifState
    rw [hs.shape]
    change (if _ then _ else _) = _
    rw [if_neg hlengths]
    rfl
  refine ⟨_, hencode, ?_, hrestore⟩
  refine (readState_parses.readAll_ok_iff .trailingBytes).mpr ⟨rfl, ?_⟩
  have hfits : ∀ bytes : List Byte, bytes.length ≤ 16 → bytes.length < 2 ^ 32 := by
    intro bytes hbytes
    omega
  exact ⟨hfits _ htransmit, hfits _ hreceive, hsent, hshape, rfl⟩

/-! ## Runs -/

/-- The scheduler's numbers are far from their ends in every state of the run. -/
def InRangeRun : Port → List Action → Prop
  | s, [] => InRange s
  | s, action :: rest => InRange s ∧ InRangeRun (step s action) rest

theorem run_settled (hs : Settled s) {actions : List Action}
    (haccounts : Accounts ledger s.device.transmittedBytes s.device.transmitFifo)
    (hrange : InRangeRun s actions) : Settled (run s actions) ∧ InRange (run s actions) ∧
      Accounts (Ledger.ofRun s ledger actions) (run s actions).device.transmittedBytes
        (run s actions).device.transmitFifo := by
  induction actions generalizing s ledger with
  | nil => exact ⟨hs, hrange, haccounts⟩
  | cons action rest ih =>
    obtain ⟨hfirst, hrest⟩ := hrange
    have hstep := step_leaves hs hfirst action
    refine ih hstep.settled ?_ hrest
    rw [hstep.sent, hstep.waiting]
    exact haccounts.follow action

/-- There is a byte to send and sending is on, exactly while the scheduler holds the port's event
at a later cycle. -/
def EventExact (s : Port) : Prop :=
  (∃ key ∈ s.scheduler.events, s.device.transmitEvent = some key.id ∧
      s.device.transmitEventDeadline = some key.deadline ∧
      s.scheduler.currentCycle < key.deadline) ↔
    s.device.transmitFifo ≠ [] ∧ s.device.control &&& 0x20 ≠ 0 ∧ s.device.fifoControl &&& 0x04 = 0

theorem Settled.eventExact (hs : Settled s) : EventExact s := by
  unfold EventExact
  rw [← requiresEvent_iff, ← hs.armed]
  rcases hs.event with hquiet | ⟨key, hsending⟩
  · rw [hquiet.event]
    constructor
    · rintro ⟨key, hkey, -⟩
      exact absurd hkey (hquiet.none key)
    · intro h
      cases h
  · constructor
    · rintro ⟨key', -, hevent, -⟩
      rw [hevent]
      rfl
    · intro _
      exact ⟨key, (hsending.only key).mpr rfl, hsending.event, hsending.deadline, hsending.ahead⟩

/-- In every state of a run on a scheduler whose numbers do not run out. -/
theorem run_portWindow (budget : Option Nat) (actions : List Action)
    (hrange : InRangeRun (Port.create budget) actions) :
    let s := run (Port.create budget) actions
    s.device.transmitFifo.length ≤ 16 ∧ s.device.receiveFifo.length ≤ 16 ∧
      EventExact s ∧ Derived s.device ∧ s.device.transmittedBytes ++ s.device.transmitFifo =
        (Ledger.ofRun (Port.create budget) [] actions).kept ∧
      (∀ a, s.phase = .loop a → ∃ t, advanceRound a s = .ok () t) ∧
      (s.device.transmittedBytes.length < 2 ^ 32 →
        ∃ bytes, encodeSh4ScifState s.snapshot = .ok bytes ∧
          decodeSh4ScifState bytes = .ok s.snapshot.cleared ∧
          validateStateRestore s.snapshot.cleared s.snapshot.schedulerCycle = .ok ()) := by
  have hcreate := create_settled budget
  have hstart : Accounts [] (Port.create budget).device.transmittedBytes
      (Port.create budget).device.transmitFifo := by
    rw [hcreate.sent, hcreate.waiting]
    exact Accounts.nil
  obtain ⟨hs, hends, haccounts⟩ := run_settled hcreate.settled hstart hrange
  refine ⟨hs.registers.transmitFifo, hs.registers.receiveFifo, hs.eventExact, hs.derived,
    haccounts.kept.symm, ?_, hs.handoff⟩
  intro a hphase
  have hround := advanceRound_ensures hs hphase hends
  cases hresult : advanceRound a (run (Port.create budget) actions) with
  | ok _ t => exact ⟨t, rfl⟩
  | error e t => exact (hround.of_error hresult).elim

/-- A byte in the FIFO of a port that does not send yet. -/
theorem run_portWindow_waiting :
    let actions := [Action.write 0x0C 0x41 .byte, .read 0x1C .halfword]
    InRangeRun (Port.create none) actions ∧
      (run (Port.create none) actions).device.transmitFifo = [0x41] ∧
      EventExact (run (Port.create none) actions) := by
  intro actions
  have hrange : InRangeRun (Port.create none) actions := by
    refine ⟨?_, ?_, ?_⟩
    all_goals
      refine ⟨⟨?_, ?_⟩, ?_⟩
      · change 0 + maxFrameCycles ≤ Scheduler.uint64Max
        decide
      · change 1 < Scheduler.uint64Max
        decide
      · intro a hphase
        cases hphase
  exact ⟨hrange, rfl, (run_portWindow none actions hrange).2.2.1⟩

/-! ## A payload that is too large -/

/-- What the sending of a byte leaves alone, and the bounds of what it changes. -/
structure Beside (s t : Port) : Prop where
  control : t.device.control = s.device.control
  fifoControl : t.device.fifoControl = s.device.fifoControl
  phase : t.phase = s.phase
  cycle : t.scheduler.currentCycle = s.scheduler.currentCycle
  budget : t.scheduler.guestCycleBudget = s.scheduler.guestCycleBudget
  eventId : t.scheduler.nextEventId ≤ s.scheduler.nextEventId + 1
  deadline : ∀ d, t.device.transmitEventDeadline = some d →
    s.device.transmitEventDeadline = some d ∨ d ≤ s.scheduler.currentCycle + maxFrameCycles

theorem finish_beside (s : Port) :
    Ensures (updateInterrupts >>= fun _ => scheduleTransmit) s (fun _ t => Beside s t)
      (fun _ _ => True) := by
  refine .bind (.update ?_)
  unfold scheduleTransmit
  refine .bind (.get (.ite (fun _ => .pure ?_) fun _ => ?_))
  · exact ⟨rfl, rfl, rfl, rfl, rfl, Nat.le_succ _, fun d hd => .inl hd⟩
  refine .bind (.ofChecked ?_ fun _ _ => trivial)
  intro cycles hcycles
  obtain ⟨n, hn, -, hsmall⟩ := frameCycles_ok s.device.refreshStatus
  have hcycles' : cycles = n := by
    change s.device.refreshStatus.frameCycles = .ok cycles at hcycles
    rw [hn] at hcycles
    cases hcycles
    rfl
  refine .ite (fun _ => .throw trivial) fun _ => .bind ?_
  unfold Ensures schedule
  dsimp only
  cases hschedule : scheduleAt s.scheduler (s.scheduler.currentCycle + cycles)
      (some .completeTransmit) .scifTransmit with
  | error e => trivial
  | ok result =>
    obtain ⟨id, scheduler⟩ := result
    have hscheduled := scheduleAt_spec hschedule
    refine ⟨rfl, rfl, rfl, hscheduled.currentCycle, hscheduled.guestCycleBudget,
      hscheduled.nextEventId.le, ?_⟩
    intro d hd
    have hd : s.scheduler.currentCycle + cycles = d := Option.some.inj hd
    exact .inr (by omega)

/-- A port that can send, with `n` bytes sent already. -/
structure Ready (n : Nat) (s : Port) : Prop where
  settled : Settled s
  idle : s.phase = .idle
  empty : s.device.transmitFifo = []
  enabled : s.device.control &&& 0x20 ≠ 0
  taking : s.device.fifoControl &&& 0x04 = 0
  sent : s.device.transmittedBytes.length = n
  cycle : s.scheduler.currentCycle ≤ n * maxFrameCycles
  eventId : s.scheduler.nextEventId ≤ 2 * n + 1
  unlimited : s.scheduler.guestCycleBudget = none

theorem inRange_of_bounds {s : Port} {n : Nat} (hn : n ≤ 2 ^ 32)
    (hcycle : s.scheduler.currentCycle ≤ (n + 1) * maxFrameCycles)
    (heventId : s.scheduler.nextEventId ≤ 2 * n + 3)
    (htarget : ∀ a, s.phase = .loop a → a.effectiveTarget ≤ (n + 1) * maxFrameCycles) :
    InRange s := by
  have hbound : (n + 1) * maxFrameCycles ≤ (2 ^ 32 + 1) * maxFrameCycles :=
    Nat.mul_le_mul (by omega) le_rfl
  have hroom : (2 ^ 32 + 1) * maxFrameCycles + maxFrameCycles ≤ Scheduler.uint64Max := by decide
  refine ⟨⟨by omega, ?_⟩, ?_⟩
  · unfold Scheduler.uint64Max
    omega
  · intro a ha
    have := htarget a ha
    omega

/-- The port with a byte in the FIFO and its event pending. -/
theorem Ready.filled {n : Nat} (h : Ready n s) (hn : n < 2 ^ 32) :
    ∃ key, Sending (step s (.write 0x0C 0 .byte)) key ∧ key.deadline ≤ (n + 1) * maxFrameCycles ∧
      Leaves (step s (.write 0x0C 0 .byte)) s.device.transmittedBytes [s.device.lineByte 0] ∧
      Beside s (step s (.write 0x0C 0 .byte)) := by
  have hrange : InRange s := by
    refine inRange_of_bounds hn.le ?_ ?_ ?_
    · have := h.cycle
      rw [Nat.add_mul]
      omega
    · have := h.eventId
      omega
    · intro a ha
      rw [h.idle] at ha
      cases ha
  have haccepts : s.device.acceptsTransmit = true := by
    unfold Sh4Scif.acceptsTransmit
    rw [h.taking, h.empty]
    rfl
  have hperform : perform s (.write 0x0C 0 .byte) = write 0x0C 0 .byte s := by
    unfold perform
    rw [h.idle]
    rfl
  have hleaves := step_leaves h.settled hrange (.write 0x0C 0 .byte)
  have htraffic : traffic s (.write 0x0C 0 .byte) =
      (s.device.transmittedBytes, [s.device.lineByte 0]) := by
    simp [traffic, h.idle, callerTraffic, haccepts, h.empty]
  rw [htraffic] at hleaves
  dsimp only at hleaves
  have hdevice : (s.device.accept 0).control = s.device.control ∧
      (s.device.accept 0).fifoControl = s.device.fifoControl ∧
      (s.device.accept 0).transmitEventDeadline = s.device.transmitEventDeadline := by
    unfold Sh4Scif.accept
    split <;> exact ⟨rfl, rfl, rfl⟩
  have hbeside : Beside s (step s (.write 0x0C 0 .byte)) := by
    have hwrite : Ensures (write 0x0C 0 .byte) s (fun _ t => Beside s t) (fun _ _ => True) := by
      refine .bind (requireWidth_ensures (fun _ => ?_) fun _ => trivial)
      refine .bind (onDevice_ensures ((finish_beside _).mono ?_ fun _ _ h => h))
      intro _ t ht
      exact ⟨ht.control.trans hdevice.1, ht.fifoControl.trans hdevice.2.1, ht.phase, ht.cycle,
        ht.budget, ht.eventId, fun d hd => (ht.deadline d hd).imp_left fun hd =>
          hdevice.2.2.symm.trans hd⟩
    unfold step
    rw [hperform]
    cases hresult : write 0x0C 0 .byte s with
    | ok _ t => exact hwrite.of_ok hresult
    | error e t =>
      have hfits := hrange.toFrameFits
      have hnever : Ensures (write 0x0C 0 .byte) s (fun _ _ => True) (fun _ _ => False) := by
        refine .bind (requireWidth_ensures (fun _ => ?_) fun h => absurd rfl h)
        exact (writeTransmit_ensures h.settled hfits 0).mono (fun _ _ _ => trivial) fun _ _ h => h
      exact (hnever.of_error hresult).elim
  have hrequires : (step s (.write 0x0C 0 .byte)).device.requiresEvent = true := by
    refine requiresEvent_iff.mpr ⟨?_, ?_, ?_⟩
    · rw [hleaves.waiting]
      simp
    · rw [hbeside.control]
      exact h.enabled
    · rw [hbeside.fifoControl]
      exact h.taking
  rcases hleaves.settled.event with hquiet | ⟨key, hsending⟩
  · have harmed := hleaves.settled.armed
    rw [hrequires, hquiet.event] at harmed
    cases harmed
  · refine ⟨key, hsending, ?_, hleaves, hbeside⟩
    rcases hbeside.deadline key.deadline hsending.deadline with hold | hnew
    · have hquiet : Quiet s := by
        rcases h.settled.event with hquiet | ⟨key', hsending'⟩
        · exact hquiet
        · have harmed := h.settled.armed
          rw [hsending'.event, Sh4Scif.requiresEvent, h.empty] at harmed
          cases harmed
      rw [hquiet.deadline] at hold
      cases hold
    · have := h.cycle
      rw [Nat.add_mul]
      omega

/-- The advance to the end of a frame. -/
def frameAdvance (key : EventKey) : Advance := ⟨key.deadline, 1, key.deadline, 0⟩

variable {key : EventKey}

theorem step_advanceTo (hs : Settled s) (hphase : s.phase = .idle)
    (hsending : Sending s key) (hfits : key.deadline < 2 ^ 64)
    (hunlimited : s.scheduler.guestCycleBudget = none) :
    step s (.advanceTo (BitVec.ofNat 64 key.deadline) 1) = { s with
      scheduler := { s.scheduler with advanceInProgress := true }
      phase := .loop (frameAdvance key) } := by
  have hoff : s.scheduler.advanceInProgress = false := by
    have hadvance := hs.scheduler.advance
    rw [hphase] at hadvance
    exact hadvance
  have hahead := hsending.ahead
  have hbegin : beginAdvance s.scheduler key.deadline 1 =
      .ok (frameAdvance key, { s.scheduler with advanceInProgress := true }) := by
    unfold beginAdvance
    rw [if_neg (by simp [hoff]), if_neg (by omega)]
    dsimp only
    rw [hunlimited]
    rfl
  unfold step perform
  rw [hphase]
  change resultState (advanceBegins s (beginAdvance s.scheduler
    (BitVec.ofNat 64 key.deadline).toNat 1)) = _
  rw [BitVec.toNat_ofNat, Nat.mod_eq_of_lt hfits, hbegin]
  rfl

theorem minKey?_of_only (hsending : Sending s key) : s.scheduler.events.minKey? = some key := by
  have hmem := (hsending.only key).mpr rfl
  cases hmin : s.scheduler.events.minKey? with
  | none => exact absurd hmem (EventKey.minKey?_none hmin key)
  | some key' =>
    rw [(hsending.only key').mp (EventKey.minKey?_spec hmin).1]

/-- The round that ends the frame of the only byte, and the one that ends the advance. -/
theorem frame_rounds (hs : Settled s) (hrange : InRange s)
    (hphase : s.phase = .loop (frameAdvance key)) (hsending : Sending s key) {byte : Byte}
    (hwaiting : s.device.transmitFifo = [byte]) :
    ∃ t, step s .advanceRound = t ∧ Leaves t (s.device.transmittedBytes ++ [byte]) [] ∧
      t.phase = .loop { frameAdvance key with processed := 1 } ∧
      t.scheduler.currentCycle = key.deadline ∧
      t.scheduler.nextEventId ≤ s.scheduler.nextEventId + 1 ∧
      t.scheduler.guestCycleBudget = s.scheduler.guestCycleBudget ∧
      t.device.control = s.device.control ∧ t.device.fifoControl = s.device.fifoControl := by
  have hmin := minKey?_of_only hsending
  have hhead : loopHead s.scheduler (frameAdvance key) =
      .fire key { frameAdvance key with processed := 1 } (extractEvent s.scheduler key) := by
    unfold loopHead
    rw [hmin]
    simp [frameAdvance]
  have hcomplete := completeTransmit_ensures hs hphase hmin le_rfl
    (show ({ frameAdvance key with processed := 1 } : Advance).effectiveTarget = _ from rfl) rfl
    (hrange.target _ hphase) hrange.eventId
  have hbeside : Ensures (completeTransmit key.id) { s with
      scheduler := extractEvent s.scheduler key
      phase := .callback { frameAdvance key with processed := 1 } }
      (fun _ t => t.scheduler.currentCycle = key.deadline ∧
        t.scheduler.nextEventId ≤ s.scheduler.nextEventId + 1 ∧
        t.scheduler.guestCycleBudget = s.scheduler.guestCycleBudget ∧
        t.device.control = s.device.control ∧ t.device.fifoControl = s.device.fifoControl)
      (fun _ _ => True) := by
    unfold completeTransmit
    refine .bind (.get (.ite (fun _ => .throw trivial) fun _ => ?_))
    refine .bind (onDevice_ensures ((finish_beside _).mono ?_ fun _ _ h => h))
    intro _ t ht
    exact ⟨ht.cycle, ht.eventId, ht.budget, ht.control, ht.fifoControl⟩
  cases hcallback : completeTransmit key.id { s with
      scheduler := extractEvent s.scheduler key
      phase := .callback { frameAdvance key with processed := 1 } } with
  | error e t => exact (hcomplete.of_error hcallback).elim
  | ok _ t =>
    obtain ⟨ht, htphase⟩ := hcomplete.of_ok hcallback
    obtain ⟨hcycle, hid, hbudget, hcontrol, hfifoControl⟩ := hbeside.of_ok hcallback
    have hreturned : SchedulerOk t.scheduler
        (.callback { frameAdvance key with processed := 1 }) := htphase ▸ ht.settled.scheduler
    have hstep : step s .advanceRound =
        { t with phase := .loop { frameAdvance key with processed := 1 } } := by
      unfold step perform
      rw [hphase]
      change resultState (advanceRound (frameAdvance key) s) = _
      unfold advanceRound
      rw [hhead]
      dsimp only
      rw [hcallback]
      rfl
    rw [hwaiting] at ht
    exact ⟨_, hstep, ⟨ht.settled.forward hreturned.returned rfl ht.settled.ahead, ht.sent,
      ht.waiting⟩, rfl, hcycle, hid, hbudget, hcontrol, hfifoControl⟩

theorem last_round {a : Advance} (hphase : s.phase = .loop a) (hquiet : Quiet s) :
    step s .advanceRound = { s with
      scheduler := endAdvance { s.scheduler with currentCycle := a.effectiveTarget }
      phase := .idle } := by
  have hmin : s.scheduler.events.minKey? = none := by
    cases hmin : s.scheduler.events.minKey? with
    | none => rfl
    | some key => exact absurd (EventKey.minKey?_spec hmin).1 (hquiet.none key)
  unfold step perform
  rw [hphase]
  change resultState (advanceRound a s) = _
  unfold advanceRound loopHead
  rw [hmin]
  rfl

theorem quiet_of_empty (hs : Settled s) (hempty : s.device.transmitFifo = []) : Quiet s := by
  rcases hs.event with hquiet | ⟨key, hsending⟩
  · exact hquiet
  · have harmed := hs.armed
    rw [hsending.event, Sh4Scif.requiresEvent, hempty] at harmed
    cases harmed

/-- One more byte goes out, in four actions. -/
theorem Ready.send {n : Nat} (h : Ready n s) (hn : n < 2 ^ 32) :
    ∃ actions, InRangeRun s actions ∧ Ready (n + 1) (run s actions) := by
  obtain ⟨key, hsending, hdeadline, hfilled, hbeside⟩ := h.filled hn
  generalize hs₁ : step s (.write 0x0C 0 .byte) = s₁ at hsending hfilled hbeside
  have hphase₁ : s₁.phase = .idle := hbeside.phase.trans h.idle
  have hnext := h.eventId
  have hnext₁ := hbeside.eventId
  have hcycle := h.cycle
  have hwide : n * maxFrameCycles ≤ (n + 1) * maxFrameCycles := Nat.mul_le_mul (by omega) le_rfl
  have hfits : key.deadline < 2 ^ 64 := by
    have hbound : (n + 1) * maxFrameCycles ≤ (2 ^ 32 + 1) * maxFrameCycles :=
      Nat.mul_le_mul (by omega) le_rfl
    have hsmall : (2 ^ 32 + 1) * maxFrameCycles < 2 ^ 64 := by decide
    omega
  have hunlimited : s₁.scheduler.guestCycleBudget = none := hbeside.budget.trans h.unlimited
  have hs₂ := step_advanceTo hfilled.settled hphase₁ hsending hfits hunlimited
  have hrange₁ : InRange s₁ := by
    refine inRange_of_bounds hn.le ?_ (by omega) ?_
    · rw [hbeside.cycle]
      omega
    · intro b hb
      rw [hphase₁] at hb
      cases hb
  have hleaves₂ : Leaves (step s₁ (.advanceTo (BitVec.ofNat 64 key.deadline) 1))
      s.device.transmittedBytes [s.device.lineByte 0] := by
    have hstep := step_leaves hfilled.settled hrange₁ (.advanceTo (BitVec.ofNat 64 key.deadline) 1)
    have htraffic : traffic s₁ (.advanceTo (BitVec.ofNat 64 key.deadline) 1) =
        (s₁.device.transmittedBytes, s₁.device.transmitFifo) := by
      simp [traffic, hphase₁, callerTraffic]
    rw [htraffic, hfilled.sent, hfilled.waiting] at hstep
    exact hstep
  generalize hstep₂ : step s₁ (.advanceTo (BitVec.ofNat 64 key.deadline) 1) = s₂ at hs₂ hleaves₂
  have hsending₂ : Sending s₂ key := by
    subst hs₂
    exact ⟨hsending.event, hsending.deadline, hsending.only, hsending.ahead⟩
  have hrange₂ : InRange s₂ := by
    subst hs₂
    refine inRange_of_bounds hn.le ?_ ?_ ?_
    · change s₁.scheduler.currentCycle ≤ _
      rw [hbeside.cycle]
      omega
    · change s₁.scheduler.nextEventId ≤ _
      omega
    · intro b hb
      cases hb
      exact hdeadline
  have hphase₂ : s₂.phase = .loop (frameAdvance key) := by
    subst hs₂
    rfl
  have hkept₂ : s₂.scheduler.nextEventId = s₁.scheduler.nextEventId ∧
      s₂.scheduler.guestCycleBudget = none ∧ s₂.device.control = s.device.control ∧
      s₂.device.fifoControl = s.device.fifoControl := by
    subst hs₂
    exact ⟨rfl, hunlimited, hbeside.control, hbeside.fifoControl⟩
  obtain ⟨s₃, hstep₃, hleaves₃, hphase₃, hcycle₃, hid₃, hbudget₃, hcontrol₃, hfifo₃⟩ :=
    frame_rounds hleaves₂.settled hrange₂ hphase₂ hsending₂ hleaves₂.waiting
  have hquiet₃ := quiet_of_empty hleaves₃.settled hleaves₃.waiting
  have hrange₃ : InRange s₃ := by
    refine inRange_of_bounds hn.le ?_ ?_ ?_
    · rw [hcycle₃]
      exact hdeadline
    · rw [hkept₂.1] at hid₃
      omega
    · intro b hb
      rw [hphase₃] at hb
      cases hb
      exact hdeadline
  have hstep₄ := last_round hphase₃ hquiet₃
  have hleaves₄ := step_leaves hleaves₃.settled hrange₃ .advanceRound
  generalize hs₄ : step s₃ .advanceRound = s₄ at hstep₄ hleaves₄
  have hready : Ready (n + 1) s₄ := by
    subst hstep₄
    refine ⟨hleaves₄.settled, rfl, hleaves₃.waiting, ?_, ?_, ?_, ?_, ?_, ?_⟩
    · change s₃.device.control &&& 0x20 ≠ 0
      rw [hcontrol₃, hkept₂.2.2.1]
      exact h.enabled
    · change s₃.device.fifoControl &&& 0x04 = 0
      rw [hfifo₃, hkept₂.2.2.2]
      exact h.taking
    · change s₃.device.transmittedBytes.length = n + 1
      rw [hleaves₃.sent, hleaves₂.sent, List.length_append, h.sent]
      rfl
    · exact hdeadline
    · change s₃.scheduler.nextEventId ≤ _
      rw [hkept₂.1] at hid₃
      omega
    · exact hbudget₃.trans hkept₂.2.1
  have hrange : InRange s := by
    refine inRange_of_bounds hn.le (by omega) (by omega) ?_
    intro b hb
    rw [h.idle] at hb
    cases hb
  have hrange₄ : InRange s₄ := by
    refine inRange_of_bounds (show n + 1 ≤ 2 ^ 32 by omega) ?_ ?_ ?_
    · have := hready.cycle
      have hwide₄ : (n + 1) * maxFrameCycles ≤ (n + 1 + 1) * maxFrameCycles :=
        Nat.mul_le_mul (by omega) le_rfl
      omega
    · have := hready.eventId
      omega
    · intro b hb
      rw [hready.idle] at hb
      cases hb
  refine ⟨[.write 0x0C 0 .byte, .advanceTo (BitVec.ofNat 64 key.deadline) 1, .advanceRound,
    .advanceRound], ?_, ?_⟩
  · unfold InRangeRun
    rw [hs₁]
    unfold InRangeRun
    rw [hstep₂]
    unfold InRangeRun
    rw [hstep₃]
    unfold InRangeRun
    rw [hs₄]
    exact ⟨hrange, hrange₁, hrange₂, hrange₃, hrange₄⟩
  · simp only [run, List.foldl_cons, List.foldl_nil, hs₁, hstep₂, hstep₃, hs₄]
    exact hready

theorem InRangeRun.append {first second : List Action} (h : InRangeRun s first)
    (h' : InRangeRun (run s first) second) : InRangeRun s (first ++ second) := by
  induction first generalizing s with
  | nil => exact h'
  | cons action rest ih => exact ⟨h.1, ih h.2 h'⟩

/-- Any number of bytes up to `2^32` can be sent without a reset. -/
theorem exists_sent (n : Nat) (hn : n ≤ 2 ^ 32) : ∃ actions, InRangeRun (Port.create none) actions ∧
      Ready n (run (Port.create none) actions) := by
  induction n with
  | zero =>
    have hcreate := create_settled none
    have hrange : InRange (Port.create none) := by
      refine @inRange_of_bounds _ 0 (Nat.zero_le _) (Nat.zero_le _) ?_ ?_
      · change 1 ≤ 2 * 0 + 3
        omega
      · intro a ha
        cases ha
    have hleaves := step_leaves hcreate.settled hrange (.write 0x08 0x20 .halfword)
    refine ⟨[.write 0x08 0x20 .halfword], ⟨hrange, ?_⟩, ⟨hleaves.settled, rfl, rfl, ?_, rfl, rfl,
      Nat.zero_le _, ?_, rfl⟩⟩
    · refine @inRange_of_bounds _ 0 (Nat.zero_le _) (Nat.zero_le _) ?_ ?_
      · change 1 ≤ 2 * 0 + 3
        omega
      · intro a ha
        cases ha
    · change (0x20 : BitVec 16) ≠ 0
      decide
    · change 1 ≤ 2 * 0 + 1
      omega
  | succ n ih =>
    obtain ⟨actions, hrange, hready⟩ := ih (by omega)
    obtain ⟨more, hrange', hready'⟩ := hready.send (by omega)
    refine ⟨actions ++ more, hrange.append hrange', ?_⟩
    unfold run at hready' ⊢
    rw [List.foldl_append]
    exact hready'

/-- With `2^32` bytes sent the encoder refuses the snapshot of a port in order. -/
theorem encode_tooLarge : ∃ actions, InRangeRun (Port.create none) actions ∧
    encodeSh4ScifState (run (Port.create none) actions).snapshot = .error .tooLarge := by
  obtain ⟨actions, hrange, hready⟩ := exists_sent (2 ^ 32) le_rfl
  refine ⟨actions, hrange, ?_⟩
  unfold encodeSh4ScifState
  rw [hready.settled.shape]
  change (if _ then _ else _) = _
  rw [if_pos]
  · rfl
  · refine .inr (.inr ?_)
    change (run (Port.create none) actions).device.transmittedBytes.length > uint32Max
    rw [hready.sent]
    decide

end KatanaRecomp.Runtime.Scif
