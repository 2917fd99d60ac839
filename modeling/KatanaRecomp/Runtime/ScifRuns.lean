import KatanaRecomp.Runtime.ScifInvariant

/-! # Runs of the serial port

Every call leaves a settled port, as long as the numbers of the scheduler do
not run out, and moves bytes as `traffic` says: into the FIFO, out of it at the
end of a frame, or away with a reset. -/
namespace KatanaRecomp.Runtime.Scif
open Lib ByteFormat Scheduler

/-- The bytes sent and the bytes waiting after a call between advances. -/
def callerTraffic (scif : Sh4Scif) : Action → List Byte × List Byte
  | .write offset value width =>
    if offset.toNat = 0x0C ∧ width = .byte ∧ scif.acceptsTransmit then
      (scif.transmittedBytes, scif.transmitFifo ++ [scif.lineByte (value.setWidth 8)])
    else if offset.toNat = 0x18 ∧ width = .halfword ∧ value &&& 0x04 ≠ 0 then
      (scif.transmittedBytes, [])
    else (scif.transmittedBytes, scif.transmitFifo)
  | .reset => ([], [])
  | _ => (scif.transmittedBytes, scif.transmitFifo)

/-- The bytes sent and the bytes waiting after an action. -/
def traffic (s : Port) (action : Action) : List Byte × List Byte :=
  let sent := s.device.transmittedBytes
  let waiting := s.device.transmitFifo
  match s.phase, action with
  | .loop a, .advanceRound =>
    match loopHead s.scheduler a with
    | .fire .. => (sent ++ waiting.take 1, waiting.tail)
    | .returns .. => (sent, waiting)
  | .loop _, _ => (sent, waiting)
  | _, action => callerTraffic s.device action

/-- Nothing went out or came in. -/
def Kept (s t : Port) : Prop := Leaves t s.device.transmittedBytes s.device.transmitFifo

variable {s : Port}

theorem Settled.kept (hs : Settled s) : Kept s s := ⟨hs, rfl, rfl⟩

variable {fail : ScifError → Port → Prop}

theorem requireWidth_ensures {actual expected : MemoryAccessWidth} {name : String}
    {post : Unit → Port → Prop} (hok : actual = expected → post () s)
    (hfail : actual ≠ expected → fail (.width name) s) :
    Ensures (requireWidth actual expected name) s post fail := by
  unfold requireWidth
  refine .ite ?_ ?_
  · intro hne
    exact .throw (hfail hne)
  · intro heq
    exact .pure (hok (not_not.mp heq))

/-- A register that neither the event nor the status depends on. -/
theorem Settled.setRegister (hs : Settled s) {device : Sh4Scif}
    (hregisters : Registers device) (hsame : SameEvent s.device device)
    (htransmit : device.transmitFifo = s.device.transmitFifo)
    (hreceive : device.receiveFifo = s.device.receiveFifo)
    (hcontrol : device.control = s.device.control)
    (hfifoControl : device.fifoControl = s.device.fifoControl)
    (hstatus : device.status = s.device.status) : Settled { s with device } := by
  have hderived := hs.derived
  refine { hs.toEvents.setDevice hsame s.lines with
    registers := hregisters, derived := ⟨?_, ?_, ?_, ?_⟩, armed := ?_ }
  · rw [hstatus, htransmit, hfifoControl]
    exact hderived.transmitEmpty
  · rw [hstatus, htransmit]
    exact hderived.transmitEnd
  · rw [hstatus, hreceive]
    exact hderived.receiveReady
  · rw [hstatus, hreceive, hfifoControl]
    exact hderived.receiveFull
  · unfold Sh4Scif.requiresEvent
    rw [hsame.event, htransmit, hcontrol, hfifoControl]
    exact hs.armed

theorem Settled.sending (hs : Settled s) (h : s.device.transmitEvent.isSome = true) :
    s.device.requiresEvent = true := by
  rw [← hs.armed, h]

theorem FrameFits.of_eq {t : Port} (h : FrameFits s)
    (hcycle : t.scheduler.currentCycle = s.scheduler.currentCycle)
    (hid : t.scheduler.nextEventId = s.scheduler.nextEventId) : FrameFits t :=
  ⟨by rw [hcycle]; exact h.cycle, by rw [hid]; exact h.eventId⟩

variable {scif : Sh4Scif}

theorem requiresEvent_iff : scif.requiresEvent = true ↔
    scif.transmitFifo ≠ [] ∧ scif.control &&& 0x20 ≠ 0 ∧ scif.fifoControl &&& 0x04 = 0 := by
  unfold Sh4Scif.requiresEvent
  simp [and_assoc]

/-! ## Register writes -/

theorem writeControl_ensures (hs : Settled s) (hfits : FrameFits s) (value : BitVec 32) :
    Ensures (do
        onDevice fun scif => { scif with control := (value &&& 0x00FA).setWidth 16 }
        let s ← get
        if s.device.control &&& 0x20 = 0 then cancelTransmit else pure ()
        updateInterrupts
        scheduleTransmit) s (fun _ t => Kept s t) (fun _ _ => False) := by
  refine .bind (onDevice_ensures (.bind (.get ?_)))
  generalize hdevice : ({ s.device with control := (value &&& 0x00FA).setWidth 16 } : Sh4Scif) =
    device
  have hsame : SameEvent s.device device := by
    subst hdevice
    exact ⟨rfl, rfl, rfl⟩
  have hregisters : Registers device := by
    subst hdevice
    exact { hs.registers with control := within_written value 0x00FA }
  have hevents := hs.toEvents.setDevice hsame s.lines
  have hkept : device.transmittedBytes = s.device.transmittedBytes ∧
      device.transmitFifo = s.device.transmitFifo ∧ device.fifoControl = s.device.fifoControl := by
    subst hdevice
    exact ⟨rfl, rfl, rfl⟩
  unfold Kept
  rw [← hkept.1, ← hkept.2.1]
  refine .ite ?_ ?_
  · intro _
    refine .bind ((cancelTransmit_ensures hevents).mono ?_ fun _ _ h => h)
    rintro _ t ⟨ht, hquiet, hdevice', hphase, hcycle, hid⟩
    refine (finish_ensures ht ?_ ?_ (hfits.of_eq hcycle hid)).mono ?_ fun _ _ h => h
    · rw [hdevice']
      exact { hregisters with }
    · intro hsome
      rw [hquiet.event] at hsome
      cases hsome
    · rintro _ u ⟨hu, -⟩
      rw [hdevice'] at hu
      exact hu
  · intro henabled
    refine (finish_ensures hevents hregisters ?_ ⟨hfits.cycle, hfits.eventId⟩).mono
      (fun _ _ h => h.1) fun _ _ h => h
    intro hsome
    change device.transmitEvent.isSome = true at hsome
    rw [hsame.event] at hsome
    have hold := requiresEvent_iff.mp (hs.sending hsome)
    refine requiresEvent_iff.mpr ⟨?_, henabled, ?_⟩
    · rw [hkept.2.1]
      exact hold.1
    · rw [hkept.2.2]
      exact hold.2.2

theorem accept_registers (h : Registers scif) (value : BitVec 32) :
    Registers (scif.accept value) := by
  unfold Sh4Scif.accept
  split
  · rename_i haccepts
    unfold Sh4Scif.acceptsTransmit at haccepts
    rw [Bool.and_eq_true, decide_eq_true_iff] at haccepts
    refine { h with transmitFifo := ?_ }
    rw [List.length_append]
    exact haccepts.2
  · exact h

theorem accept_same (scif : Sh4Scif) (value : BitVec 32) : SameEvent scif (scif.accept value) := by
  unfold Sh4Scif.accept
  split
  · exact ⟨rfl, rfl, rfl⟩
  · exact ⟨rfl, rfl, rfl⟩

theorem writeTransmit_ensures (hs : Settled s) (hfits : FrameFits s) (value : BitVec 32) :
    Ensures (do
        onDevice fun scif => scif.accept value
        updateInterrupts
        scheduleTransmit) s
      (fun _ t => Leaves t s.device.transmittedBytes (s.device.accept value).transmitFifo)
      (fun _ _ => False) := by
  refine .bind (onDevice_ensures ?_)
  have hevents := hs.toEvents.setDevice (accept_same s.device value) s.lines
  refine (finish_ensures hevents (accept_registers hs.registers value) ?_
    ⟨hfits.cycle, hfits.eventId⟩).mono ?_ fun _ _ h => h
  · intro hsome
    change (s.device.accept value).transmitEvent.isSome = true at hsome
    rw [(accept_same s.device value).event] at hsome
    have hold := requiresEvent_iff.mp (hs.sending hsome)
    change (s.device.accept value).requiresEvent = true
    unfold Sh4Scif.accept
    split
    · exact requiresEvent_iff.mpr ⟨by simp, hold.2⟩
    · exact hs.sending hsome
  · rintro _ t ⟨ht, -⟩
    have hsent : (s.device.accept value).transmittedBytes = s.device.transmittedBytes := by
      unfold Sh4Scif.accept
      split <;> rfl
    rw [← hsent]
    exact ht

/-- A change of the registers that the event does not depend on, with the status behind it. -/
theorem changed_ensures (hs : Settled s) {f : Sh4Scif → Sh4Scif}
    (hregisters : Registers (f s.device)) (hsame : SameEvent s.device (f s.device))
    (hsent : (f s.device).transmittedBytes = s.device.transmittedBytes)
    (htransmit : (f s.device).transmitFifo = s.device.transmitFifo)
    (hcontrol : (f s.device).control = s.device.control)
    (hfifoControl : (f s.device).fifoControl = s.device.fifoControl) :
    Ensures (onDevice f >>= fun _ => updateInterrupts) s (fun _ t => Kept s t) fail := by
  refine .bind (onDevice_ensures ?_)
  have harmed : (f s.device).transmitEvent.isSome = (f s.device).requiresEvent := by
    unfold Sh4Scif.requiresEvent
    rw [hsame.event, htransmit, hcontrol, hfifoControl]
    exact hs.armed
  refine (refreshed_ensures (hs.toEvents.setDevice hsame s.lines) hregisters harmed).mono ?_
    fun _ _ h => h
  intro _ t ht
  unfold Kept
  rw [← hsent, ← htransmit]
  exact ht

theorem clearReceive_ensures (hs : Events s) (hregisters : Registers s.device)
    (hsending : s.device.transmitEvent.isSome = true → s.device.requiresEvent = true)
    (hfits : FrameFits s) {c : Prop} [Decidable c] : Ensures (if c then (do
          onDevice fun scif => { scif with receiveFifo := [] }
          updateInterrupts
          scheduleTransmit)
        else (do
          updateInterrupts
          scheduleTransmit)) s
      (fun _ t => Leaves t s.device.transmittedBytes s.device.transmitFifo) (fun _ _ => False) := by
  refine .ite (fun _ => ?_) fun _ => ?_
  · have hsame : SameEvent s.device { s.device with receiveFifo := [] } := ⟨rfl, rfl, rfl⟩
    refine .bind (onDevice_ensures ?_)
    refine (finish_ensures (hs.setDevice hsame s.lines) ?_ hsending
      ⟨hfits.cycle, hfits.eventId⟩).mono (fun _ _ h => h.1) fun _ _ h => h
    exact { hregisters with receiveFifo := Nat.zero_le _ }
  · exact (finish_ensures hs hregisters hsending hfits).mono (fun _ _ h => h.1) fun _ _ h => h

theorem fifoReset_bit (value : BitVec 32) :
    (value &&& 0x00FF).setWidth 16 &&& 0x04#16 ≠ 0 ↔ value &&& 0x04 ≠ 0 := by
  have hbits : ∀ i, i < 16 → ((value &&& 0x00FF).setWidth 16 &&& 0x04#16).getLsbD i =
      (value &&& 0x04).getLsbD i := by
    intro i hi
    rw [BitVec.getLsbD_and, BitVec.getLsbD_setWidth, BitVec.getLsbD_and, BitVec.getLsbD_and]
    interval_cases i <;> simp
  have hhigh : ∀ i, 16 ≤ i → (value &&& 0x04).getLsbD i = false := by
    intro i hi
    rw [BitVec.getLsbD_and]
    have hmask : (0x04#32).getLsbD i = false := by
      rw [BitVec.getLsbD_ofNat]
      have hpow : 4 < 2 ^ i := lt_of_lt_of_le (by norm_num) (Nat.pow_le_pow_right (by omega) hi)
      simp [Nat.testBit_lt_two_pow hpow]
    simp [hmask]
  refine not_congr ⟨?_, ?_⟩
  · intro h
    refine BitVec.eq_of_getLsbD_eq ?_
    intro i _
    rcases Nat.lt_or_ge i 16 with hi | hi
    · rw [← hbits i hi, h]
      simp
    · rw [hhigh i hi]
      simp
  · intro h
    refine BitVec.eq_of_getLsbD_eq ?_
    intro i hi
    rw [hbits i hi, h]
    simp

/-- The two FIFO resets, in the order of the source. -/
theorem writeFifoControl_ensures (hs : Settled s) (hfits : FrameFits s)
    (value : BitVec 32) : Ensures (do
        onDevice fun scif => { scif with fifoControl := (value &&& 0x00FF).setWidth 16 }
        let s ← get
        if s.device.fifoControl &&& 0x04 ≠ 0 then do
          cancelTransmit
          onDevice fun scif => { scif with transmitFifo := [] }
        else pure ()
        if s.device.fifoControl &&& 0x02 ≠ 0 then
          onDevice fun scif => { scif with receiveFifo := [] }
        else pure ()
        updateInterrupts
        scheduleTransmit) s
      (fun _ t => Leaves t s.device.transmittedBytes
        (if value &&& 0x04 ≠ 0 then [] else s.device.transmitFifo)) (fun _ _ => False) := by
  refine .bind (onDevice_ensures (.bind (.get ?_)))
  generalize hdevice : ({ s.device with fifoControl := (value &&& 0x00FF).setWidth 16 } : Sh4Scif) =
    device
  have hsame : SameEvent s.device device := by
    subst hdevice
    exact ⟨rfl, rfl, rfl⟩
  have hregisters : Registers device := by
    subst hdevice
    exact { hs.registers with fifoControl := within_written value 0x00FF }
  have hevents := hs.toEvents.setDevice hsame s.lines
  have hkept : device.transmittedBytes = s.device.transmittedBytes ∧
      device.transmitFifo = s.device.transmitFifo ∧ device.control = s.device.control := by
    subst hdevice
    exact ⟨rfl, rfl, rfl⟩
  have hbit : device.fifoControl &&& 0x04 ≠ 0 ↔ value &&& 0x04 ≠ 0 := by
    subst hdevice
    exact fifoReset_bit value
  refine .ite ?_ ?_
  · intro hreset
    refine .bind ((cancelTransmit_ensures hevents).mono ?_ fun _ _ h => h)
    rintro _ t ⟨ht, hquiet, hdevice', hphase, hcycle, hid⟩
    refine .bind (onDevice_ensures ?_)
    have hsame' : SameEvent t.device { t.device with transmitFifo := [] } := ⟨rfl, rfl, rfl⟩
    refine (clearReceive_ensures (ht.setDevice hsame' t.lines) ?_ ?_
      (hfits.of_eq hcycle hid)).mono ?_ fun _ _ h => h
    · rw [hdevice']
      exact { hregisters with transmitFifo := Nat.zero_le _ }
    · intro hsome
      change t.device.transmitEvent.isSome = true at hsome
      rw [hquiet.event] at hsome
      cases hsome
    · intro _ u hu
      rw [if_pos (hbit.mp hreset), ← hkept.1]
      change Leaves u t.device.transmittedBytes [] at hu
      rw [hdevice'] at hu
      exact hu
  · intro hkeep
    rw [if_neg fun h => hkeep (hbit.mpr h), ← hkept.1, ← hkept.2.1]
    refine clearReceive_ensures hevents hregisters ?_ ⟨hfits.cycle, hfits.eventId⟩
    intro hsome
    change device.transmitEvent.isSome = true at hsome
    rw [hsame.event] at hsome
    have hold := requiresEvent_iff.mp (hs.sending hsome)
    refine requiresEvent_iff.mpr ⟨?_, ?_, not_not.mp hkeep⟩
    · rw [hkept.2.1]
      exact hold.1
    · rw [hkept.2.2]
      exact hold.2.1

theorem traffic_kept {offset value : BitVec 32} {width : MemoryAccessWidth}
    (htransmit : offset.toNat ≠ 0x0C) (hfifo : offset.toNat ≠ 0x18) :
    callerTraffic scif (.write offset value width) =
      (scif.transmittedBytes, scif.transmitFifo) := by
  simp [callerTraffic, htransmit, hfifo]

theorem write_ensures (hs : Settled s) (hfits : FrameFits s) (offset value : BitVec 32)
    (width : MemoryAccessWidth) : Ensures (write offset value width) s
      (fun _ t => Leaves t (callerTraffic s.device (.write offset value width)).1
        (callerTraffic s.device (.write offset value width)).2)
      (fun _ t => Leaves t (callerTraffic s.device (.write offset value width)).1
        (callerTraffic s.device (.write offset value width)).2) := by
  have hregisters := hs.registers
  unfold write
  split
  · rename_i hoffset
    rw [traffic_kept (by omega) (by omega)]
    refine .bind (requireWidth_ensures (fun _ => ?_) fun _ => hs.kept)
    refine onDevice_ensures ⟨hs.setRegister ?_ ⟨rfl, rfl, rfl⟩ rfl rfl rfl rfl rfl, rfl, rfl⟩
    exact { hregisters with mode := within_written value 0x007B }
  · rename_i hoffset
    rw [traffic_kept (by omega) (by omega)]
    refine .bind (requireWidth_ensures (fun _ => ?_) fun _ => hs.kept)
    refine onDevice_ensures ⟨hs.setRegister ?_ ⟨rfl, rfl, rfl⟩ rfl rfl rfl rfl rfl, rfl, rfl⟩
    exact { hregisters with }
  · rename_i hoffset
    rw [traffic_kept (by omega) (by omega)]
    refine .bind (requireWidth_ensures (fun _ => ?_) fun _ => hs.kept)
    exact (writeControl_ensures hs hfits value).mono (fun _ _ h => h) fun _ _ h => h.elim
  · rename_i hoffset
    refine .bind (requireWidth_ensures ?_ ?_)
    · intro hwidth
      refine (writeTransmit_ensures hs hfits value).mono ?_ fun _ _ h => h.elim
      intro _ t ht
      unfold Sh4Scif.accept at ht
      dsimp only [callerTraffic]
      cases haccepts : s.device.acceptsTransmit with
      | true =>
        rw [if_pos ⟨hoffset, hwidth, rfl⟩]
        rw [if_pos haccepts] at ht
        exact ht
      | false =>
        rw [if_neg (by simp), if_neg (by omega)]
        rw [if_neg (by simp [haccepts])] at ht
        exact ht
    · intro hwidth
      dsimp only [callerTraffic]
      rw [if_neg fun h => hwidth h.2.1, if_neg (by omega)]
      exact hs.kept
  · rename_i hoffset
    rw [traffic_kept (by omega) (by omega)]
    refine .bind (requireWidth_ensures (fun _ => ?_) fun _ => hs.kept)
    refine changed_ensures hs ?_ ⟨rfl, rfl, rfl⟩ rfl rfl rfl rfl
    exact { hregisters with
      status := hregisters.status.and _, statusLastRead := hregisters.statusLastRead.and _ }
  · rename_i hoffset
    refine .bind (requireWidth_ensures ?_ ?_)
    · intro hwidth
      refine (writeFifoControl_ensures hs hfits value).mono ?_ fun _ _ h => h.elim
      intro _ t ht
      dsimp only [callerTraffic]
      rw [if_neg (by omega)]
      by_cases hreset : value &&& 0x04 ≠ 0
      · rw [if_pos ⟨hoffset, hwidth, hreset⟩]
        rw [if_pos hreset] at ht
        exact ht
      · rw [if_neg fun h => hreset h.2.2]
        rw [if_neg hreset] at ht
        exact ht
    · intro hwidth
      dsimp only [callerTraffic]
      rw [if_neg (by omega), if_neg fun h => hwidth h.2.1]
      exact hs.kept
  · rename_i hoffset
    rw [traffic_kept (by omega) (by omega)]
    refine .bind (requireWidth_ensures (fun _ => ?_) fun _ => hs.kept)
    refine onDevice_ensures ⟨hs.setRegister ?_ ⟨rfl, rfl, rfl⟩ rfl rfl rfl rfl rfl, rfl, rfl⟩
    exact { hregisters with port := within_written value 0x00F3 }
  · rename_i hoffset
    rw [traffic_kept (by omega) (by omega)]
    refine .bind (requireWidth_ensures (fun _ => ?_) fun _ => hs.kept)
    refine .ite (fun _ => ?_) fun _ => ?_
    · refine changed_ensures hs ?_ ⟨rfl, rfl, rfl⟩ rfl rfl rfl rfl
      exact { hregisters with lineStatus := hregisters.lineStatus.and _ }
    · exact refreshed_ensures hs.toEvents hregisters hs.armed
  · rw [traffic_kept (by simp_all) (by simp_all)]
    exact .throw hs.kept

/-! ## The other calls -/

theorem received_registers (h : Registers scif) : Registers scif.received := by
  refine { h with receiveFifo := ?_ }
  have hroom := h.receiveFifo
  change scif.receiveFifo.tail.length ≤ fifoCapacity
  rw [List.length_tail]
  omega

theorem read_ensures (hs : Settled s) (offset : BitVec 32) (width : MemoryAccessWidth) :
    Ensures (read offset width) s (fun _ t => Kept s t) (fun _ t => Kept s t) := by
  have hpure : ∀ {name : String} {expected : MemoryAccessWidth} (value : BitVec 32),
      Ensures (requireWidth width expected name >>= fun _ => pure value) s (fun _ t => Kept s t)
        (fun _ t => Kept s t) := fun value =>
    .bind (requireWidth_ensures (fun _ => .pure hs.kept) fun _ => hs.kept)
  unfold read
  refine .bind (.get ?_)
  dsimp only
  split
  · exact hpure _
  · exact hpure _
  · exact hpure _
  · refine .bind (requireWidth_ensures (fun _ => ?_) fun _ => hs.kept)
    refine .bind (onDevice_ensures (.pure ?_))
    refine ⟨hs.setRegister ?_ ⟨rfl, rfl, rfl⟩ rfl rfl rfl rfl rfl, rfl, rfl⟩
    exact { hs.registers with statusLastRead := hs.registers.status }
  · refine .bind (requireWidth_ensures (fun _ => ?_) fun _ => hs.kept)
    have hread : Ensures (onDevice Sh4Scif.received >>= fun _ => updateInterrupts) s
        (fun _ t => Kept s t) (fun _ t => Kept s t) :=
      changed_ensures hs (received_registers hs.registers) ⟨rfl, rfl, rfl⟩ rfl rfl rfl rfl
    have hanswer : Ensures ((onDevice Sh4Scif.received >>= fun _ => updateInterrupts) >>= fun _ =>
        pure ((s.device.receiveFifo.headD 0).setWidth 32)) s (fun _ t => Kept s t)
        (fun _ t => Kept s t) := .bind (hread.mono (fun _ _ h => .pure h) fun _ _ h => h)
    exact hanswer
  · exact hpure _
  · exact hpure _
  · exact hpure _
  · exact hpure _
  · exact .throw hs.kept

theorem receive_registers (h : Registers scif) (value : Byte) : Registers (scif.receive value) := by
  unfold Sh4Scif.receive
  split
  · exact { h with lineStatus := h.lineStatus.or (by unfold Within; decide) }
  · rename_i hroom
    refine { h with receiveFifo := ?_ }
    rw [List.length_append]
    exact Nat.not_le.mp hroom

theorem injectReceive_ensures {s : Port} (hs : Settled s) (value : Byte)
    {fail : ScifError → Port → Prop} :
    Ensures (injectReceive value) s (fun _ t => Kept s t) fail := by
  unfold injectReceive
  refine .bind (.get (.ite (fun _ => .pure hs.kept) fun _ => ?_))
  have hrest : SameEvent s.device (s.device.receive value) ∧
      (s.device.receive value).transmittedBytes = s.device.transmittedBytes ∧
      (s.device.receive value).transmitFifo = s.device.transmitFifo ∧
      (s.device.receive value).control = s.device.control ∧
      (s.device.receive value).fifoControl = s.device.fifoControl := by
    unfold Sh4Scif.receive
    split
    · exact ⟨⟨rfl, rfl, rfl⟩, rfl, rfl, rfl, rfl⟩
    · exact ⟨⟨rfl, rfl, rfl⟩, rfl, rfl, rfl, rfl⟩
  obtain ⟨hsame, hsent, htransmit, hcontrol, hfifoControl⟩ := hrest
  exact changed_ensures hs (receive_registers hs.registers value) hsame hsent htransmit hcontrol
    hfifoControl

theorem injectBreak_ensures {s : Port} (hs : Settled s) {fail : ScifError → Port → Prop} :
    Ensures injectBreak s (fun _ t => Kept s t) fail := by
  refine changed_ensures hs ?_ ⟨rfl, rfl, rfl⟩ rfl rfl rfl rfl
  exact { hs.registers with status := hs.registers.status.or (by unfold Within; decide) }

theorem registers_initial : Registers {} := by
  constructor <;> first | exact Nat.zero_le _ | (unfold Within; decide)

theorem resetDevice_ensures {s : Port} (hs : Events s) {fail : ScifError → Port → Prop} :
    Ensures resetDevice s (fun _ t => Leaves t [] []) fail := by
  unfold resetDevice
  refine .bind ((cancelTransmit_ensures hs).mono ?_ fun _ _ h => h)
  rintro _ t ⟨ht, hquiet, -⟩
  refine .bind (onDevice_ensures ?_)
  have hevents : Events { t with device := {} } := ⟨ht.scheduler, rfl, .inl ⟨rfl, rfl, hquiet.none⟩⟩
  exact refreshed_ensures hevents registers_initial rfl

/-! ## The scheduler -/

variable {scheduler : EventScheduler ScifCallback} (hs : Settled s)
include hs

theorem handleSchedulerReset_ensures {generation : Nat} (hscheduler : SchedulerOk scheduler s.phase)
    (hempty : ∀ key, key ∉ scheduler.events)
    (hcycle : scheduler.currentCycle + maxFrameCycles ≤ Scheduler.uint64Max)
    (hid : scheduler.nextEventId < Scheduler.uint64Max) :
    Ensures handleSchedulerReset { s with scheduler, resetGeneration := generation }
      (fun _ t => Kept s t) fail := by
  unfold handleSchedulerReset
  refine .bind (onDevice_ensures (.tryCatch ?_))
  generalize hport : ({ s with
    scheduler, resetGeneration := generation, device := s.device.withoutEvent } : Port) = t
  have ht : Events t ∧ FrameFits t ∧ t.device = s.device.withoutEvent := by
    subst hport
    exact ⟨⟨hscheduler, rfl, .inl ⟨rfl, rfl, hempty⟩⟩, ⟨hcycle, hid⟩, rfl⟩
  obtain ⟨hevents, hfits, hdevice⟩ := ht
  have hregisters : Registers t.device := by
    rw [hdevice]
    exact { hs.registers with }
  have hderived : Derived t.device := by
    rw [hdevice]
    exact { hs.derived with }
  refine (scheduleTransmit_ensures hevents hregisters hderived ?_ hfits).mono ?_
    fun _ _ h => h.elim
  · intro hsome
    rw [hdevice] at hsome
    cases hsome
  · rintro _ u ⟨hu, -⟩
    rw [hdevice] at hu
    exact hu

theorem resetScheduler_ensures (hfits : FrameFits s) :
    Ensures resetScheduler s (fun _ t => Kept s t) (fun _ t => Kept s t) := by
  unfold resetScheduler
  refine .bind (.get (.ite (fun _ => .throw hs.kept) fun hidle => ?_))
  refine .ite (fun _ => .throw hs.kept) fun _ => ?_
  refine .bind (.update ?_)
  have hphase : s.phase = .idle := by
    have hadvance := hs.scheduler.advance
    cases hphase : s.phase with
    | idle => rfl
    | loop a =>
      rw [hphase] at hadvance
      exact absurd hadvance.guarded hidle
    | callback a =>
      rw [hphase] at hadvance
      exact absurd hadvance.guarded hidle
  have hid : ({ s.scheduler with
      events := ∅, eventKeys := ∅, currentCycle := 0, processedEventCount := 0 } :
      EventScheduler ScifCallback).nextEventId < Scheduler.uint64Max := hfits.eventId
  refine handleSchedulerReset_ensures hs ?_ ?_ ?_ hid
  · rw [hphase]
    have hoff : s.scheduler.advanceInProgress = false := by simpa using hidle
    refine ⟨⟨by simp, by simp, by simp, by simp, ?_⟩, hoff, Nat.zero_le _, by simp, ?_⟩
    · intro budget _
      exact Nat.zero_le budget
    · rintro a (ha | ha) <;> cases ha
  · intro key
    simp
  · change 0 + maxFrameCycles ≤ Scheduler.uint64Max
    have := hfits.cycle
    omega

/-- The clock of the scheduler moves and no event is passed. -/
theorem Settled.forward {phase : Phase} (hscheduler : SchedulerOk scheduler phase)
    (hevents : scheduler.events = s.scheduler.events)
    (hahead : ∀ key ∈ s.scheduler.events, scheduler.currentCycle < key.deadline) :
    Settled { s with scheduler, phase } := by
  refine { hs with scheduler := hscheduler, event := ?_ }
  rcases hs.event with hquiet | ⟨key, hsending⟩
  · refine .inl ⟨hquiet.event, hquiet.deadline, ?_⟩
    rw [hevents]
    exact hquiet.none
  · refine .inr ⟨key, hsending.event, hsending.deadline, ?_, ?_⟩
    · rw [hevents]
      exact hsending.only
    · exact hahead key ((hsending.only key).mpr rfl)

theorem Settled.ahead : ∀ key ∈ s.scheduler.events, s.scheduler.currentCycle < key.deadline := by
  intro key hkey
  rcases hs.event with hquiet | ⟨key', hsending⟩
  · exact absurd hkey (hquiet.none key)
  · rw [(hsending.only key).mp hkey]
    exact hsending.ahead

/-- The callback finds the transfer it was scheduled for. -/
theorem completeTransmit_ensures {a a' : Advance} {key : EventKey}
    (hphase : s.phase = .loop a) (hmin : s.scheduler.events.minKey? = some key)
    (hdue : key.deadline ≤ a.effectiveTarget) (htarget : a'.effectiveTarget = a.effectiveTarget)
    (hcycle : a'.guestCycle = a.guestCycle)
    (hroom : a.effectiveTarget + maxFrameCycles ≤ Scheduler.uint64Max)
    (hid : s.scheduler.nextEventId < Scheduler.uint64Max) : Ensures (completeTransmit key.id)
      { s with scheduler := extractEvent s.scheduler key, phase := .callback a' }
      (fun _ t => Leaves t (s.device.transmittedBytes ++ s.device.transmitFifo.take 1)
        s.device.transmitFifo.tail ∧ t.phase = .callback a') (fun _ _ => False) := by
  obtain ⟨hmem, -⟩ := EventKey.minKey?_spec hmin
  have hsending : Sending s key := by
    rcases hs.event with hquiet | ⟨key', hsending⟩
    · exact absurd hmem (hquiet.none key)
    · rwa [(hsending.only key).mp hmem]
  have hrequires := requiresEvent_iff.mp (hs.sending (by rw [hsending.event]; rfl))
  have hscheduler : SchedulerOk s.scheduler (.loop a) := hphase ▸ hs.scheduler
  have hfired := hscheduler.fired hmin hdue htarget hcycle
  have hremoved := extractEvent_spec hmem
  unfold completeTransmit
  refine .bind (.get (.ite ?_ ?_))
  · rintro (hevent | hfifo)
    · exact absurd hsending.event hevent
    · exact absurd hfifo hrequires.1
  intro _
  refine .bind (onDevice_ensures ?_)
  have hquiet : ∀ k, k ∉ (extractEvent s.scheduler key).events := by
    intro k hk
    obtain ⟨hne, hk⟩ := (hremoved.events k).mp hk
    exact hne ((hsending.only k).mp hk)
  have hregisters : Registers s.device.sent := by
    refine { hs.registers with transmitFifo := ?_ }
    have hroom := hs.registers.transmitFifo
    change s.device.transmitFifo.tail.length ≤ fifoCapacity
    rw [List.length_tail]
    omega
  refine finish_ensures ⟨hfired, rfl, .inl ⟨rfl, rfl, hquiet⟩⟩ hregisters ?_ ⟨?_, hid⟩
  · intro hsome
    cases hsome
  · change key.deadline + maxFrameCycles ≤ Scheduler.uint64Max
    omega

omit hs

/-- The numbers of the scheduler are far from their ends: there is an event id left, and a frame
from the current cycle or from where an advance is going fits below the last cycle. -/
structure InRange (s : Port) : Prop extends FrameFits s where
  target : ∀ a, s.phase = .loop a → a.effectiveTarget + maxFrameCycles ≤ Scheduler.uint64Max

theorem advanceRound_ensures (hs : Settled s) {a : Advance} (hphase : s.phase = .loop a)
    (hrange : InRange s) : Ensures (advanceRound a) s
      (fun _ t => Leaves t (traffic s .advanceRound).1 (traffic s .advanceRound).2)
      (fun _ _ => False) := by
  have hscheduler : SchedulerOk s.scheduler (.loop a) := hphase ▸ hs.scheduler
  have hadvance : Advancing s.scheduler a := hscheduler.advance
  have htraffic : traffic s .advanceRound = match loopHead s.scheduler a with
      | .fire .. => (s.device.transmittedBytes ++ s.device.transmitFifo.take 1,
        s.device.transmitFifo.tail)
      | .returns .. => (s.device.transmittedBytes, s.device.transmitFifo) := by
    unfold traffic
    rw [hphase]
  rw [htraffic]
  unfold Ensures advanceRound
  rcases loopHead_cases s.scheduler a with
    ⟨key, a', hhead, hmin, hdue, htarget, hcycle⟩ | ⟨result, hhead, -⟩ | ⟨result, hhead, -, hnone⟩
  · rw [hhead]
    have hcomplete := completeTransmit_ensures hs hphase hmin hdue htarget hcycle
      (hrange.target a hphase) hrange.eventId
    dsimp only
    cases hcallback : completeTransmit key.id
        { s with scheduler := extractEvent s.scheduler key, phase := .callback a' } with
    | error e t => exact (hcomplete.of_error hcallback).elim
    | ok _ t =>
      obtain ⟨ht, htphase⟩ := hcomplete.of_ok hcallback
      have hreturned : SchedulerOk t.scheduler (.callback a') := htphase ▸ ht.settled.scheduler
      exact ⟨ht.settled.forward hreturned.returned rfl ht.settled.ahead, ht.sent, ht.waiting⟩
  · rw [hhead]
    exact ⟨hs.forward hscheduler.leftHere rfl hs.ahead, rfl, rfl⟩
  · rw [hhead]
    have htarget : a.effectiveTarget ≤ Scheduler.uint64Max :=
      hadvance.requested.trans (hscheduler.target a (.inl rfl))
    exact ⟨hs.forward (hscheduler.left htarget (fun k hk => (hnone k hk).le) hadvance.budgeted)
      rfl hnone, rfl, rfl⟩

theorem advanceBegins_kept (hs : Settled s)
    {result : Except SchedulerError (Advance × EventScheduler ScifCallback)}
    (hresult : ∀ a scheduler, result = .ok (a, scheduler) → ∃ target budget,
      beginAdvance s.scheduler target budget = .ok (a, scheduler) ∧ target ≤ Scheduler.uint64Max) :
    Kept s (resultState (advanceBegins s result)) := by
  cases result with
  | error e => exact hs.kept
  | ok value =>
    obtain ⟨a, scheduler⟩ := value
    obtain ⟨target, budget, hbegin, htarget⟩ := hresult a scheduler rfl
    obtain ⟨hscheduler, hcycle⟩ := hs.scheduler.begun hbegin htarget
    obtain ⟨hsame, -⟩ := beginAdvance_spec hs.scheduler.consistent hbegin
    refine ⟨hs.forward hscheduler (by rw [hsame]) ?_, rfl, rfl⟩
    rw [hcycle]
    exact hs.ahead

/-! ## Runs -/

theorem toNat_le_uint64Max (x : BitVec 64) : x.toNat ≤ Scheduler.uint64Max := by
  have := x.isLt
  unfold Scheduler.uint64Max
  omega

theorem Ensures.resultState {x : ScifM Unit} {sent waiting : List Byte}
    (h : Ensures x s (fun _ t => Leaves t sent waiting) fail)
    (hfail : ∀ e t, fail e t → Leaves t sent waiting) : Leaves (Scif.resultState (x s)) sent waiting := by
  cases hx : x s with
  | ok _ t => exact h.of_ok hx
  | error e t => exact hfail e t (h.of_error hx)

theorem callerAction_leaves (hs : Settled s) (hrange : InRange s) (action : Action) :
    Leaves (resultState (callerAction s action)) (callerTraffic s.device action).1
      (callerTraffic s.device action).2 := by
  have hfits := hrange.toFrameFits
  cases action with
  | read offset width =>
    have hread : Ensures (read offset width >>= fun _ => pure () : ScifM Unit) s
        (fun _ t => Kept s t) (fun _ t => Kept s t) :=
      .bind ((read_ensures hs offset width).mono (fun _ _ h => .pure h) fun _ _ h => h)
    exact Ensures.resultState hread fun _ _ h => h
  | write offset value width =>
    exact Ensures.resultState (write_ensures hs hfits offset value width) fun _ _ h => h
  | injectReceive value =>
    exact Ensures.resultState (@injectReceive_ensures s hs value fun _ _ => False)
      fun _ _ h => False.elim h
  | injectBreak =>
    exact Ensures.resultState (@injectBreak_ensures s hs fun _ _ => False) fun _ _ h => False.elim h
  | reset =>
    exact Ensures.resultState (@resetDevice_ensures s hs.toEvents fun _ _ => False)
      fun _ _ h => False.elim h
  | resetScheduler =>
    exact Ensures.resultState (resetScheduler_ensures hs hfits) fun _ _ h => h
  | advanceTo cycle budget =>
    refine advanceBegins_kept hs ?_
    intro a scheduler h
    exact ⟨_, _, h, toNat_le_uint64Max cycle⟩
  | advanceBy cycles budget =>
    refine advanceBegins_kept hs ?_
    intro a scheduler h
    unfold beginAdvanceBy at h
    split at h
    · cases h
    split at h
    · cases h
    · have hcycle := hs.scheduler.cycle
      exact ⟨_, _, h, by omega⟩
  | advanceRound => exact hs.kept

/-- One action leaves a settled port with the bytes where `traffic` says. -/
theorem step_leaves (hs : Settled s) (hrange : InRange s) (action : Action) :
    Leaves (step s action) (traffic s action).1 (traffic s action).2 := by
  unfold step perform
  cases hphase : s.phase with
  | idle =>
    have htraffic : traffic s action = callerTraffic s.device action := by
      simp only [traffic, hphase]
    rw [htraffic]
    exact callerAction_leaves hs hrange action
  | callback a =>
    have htraffic : traffic s action = callerTraffic s.device action := by
      simp only [traffic, hphase]
    rw [htraffic]
    exact callerAction_leaves hs hrange action
  | loop a =>
    cases action with
    | advanceRound =>
      exact Ensures.resultState (advanceRound_ensures hs hphase hrange)
        fun _ _ h => False.elim h
    | _ =>
      simp only [traffic, hphase]
      exact hs.kept

theorem create_settled (budget : Option Nat) : Leaves (Port.create budget) [] [] := by
  have hevents : Events { scheduler := { guestCycleBudget := budget } } := by
    refine ⟨⟨by constructor <;> simp, rfl, Nat.zero_le _, by simp, ?_⟩, rfl,
      .inl ⟨rfl, rfl, by simp⟩⟩
    rintro a (ha | ha) <;> cases ha
  exact Ensures.resultState (@resetDevice_ensures _ hevents fun _ _ => False) fun _ _ h => False.elim h

end KatanaRecomp.Runtime.Scif
