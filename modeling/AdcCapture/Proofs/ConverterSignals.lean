/-
  What a converter does by itself while a capture waits for it: it interrupts, and what its
  registers and its FIFO hold changes (`Signal`). On a board on which nothing fails an interrupt
  that finds the FIFO not full leaves the converter as it is. So the converter as it was armed and
  its signals alone decide whether an interrupt comes while the status shows the FIFO full
  (`Signal.Fills`), and if one does, the capture has its result when it closes
  (`Scene.Phase.filled`).
-/
import AdcCapture.Proofs.CaptureOutcome
import AdcCapture.Proofs.HealthyBoard

namespace AdcCapture

/-! ## The status of a converter -/

namespace Chip

/-- The status register shows the FIFO full. -/
def full (k : Chip) : Prop := k.visible Register.deviceStatus &&& Register.fifoFull ≠ 0

instance (k : Chip) : Decidable k.full := inferInstanceAs (Decidable (_ ≠ _))

/-- The two converters show the same status, and go on to do so when it is set anew. -/
structure SameStatus (k l : Chip) : Prop where
  fillOnArm : l.fillOnArm = k.fillOnArm
  byte : l.registers.get Register.deviceStatus = k.registers.get Register.deviceStatus
  mode : l.narrow .fifoMode = k.narrow .fifoMode

namespace SameStatus

variable {k l : Chip}

theorem refl (k : Chip) : SameStatus k k := ⟨rfl, rfl, rfl⟩

theorem full_iff (h : SameStatus k l) : l.full ↔ k.full := by
  unfold full
  rw [visible_congr h.fillOnArm h.byte h.mode]

theorem writeStatus (h : SameStatus k l) (v : UInt8) :
    SameStatus (k.write Register.deviceStatus v) (l.write Register.deviceStatus v) where
  fillOnArm := h.fillOnArm
  byte := (RegisterFile.get_set_self _ v (by decide)).trans
    (RegisterFile.get_set_self _ v (by decide)).symm
  mode := by
    have hmode : ∀ k : Chip, (k.write Register.deviceStatus v).narrow .fifoMode =
        k.narrow .fifoMode := fun k =>
      congrArg Field.fifoMode.get (RegisterFile.get_set_of_ne _ v (by decide))
    rw [hmode, hmode, h.mode]

/-- A change of the watermark before the arming does not show in the status after it. -/
theorem armed (v : UInt16) (k : Chip) :
    SameStatus (k.setMode .immediateTrigger)
      (((k.setMode .disabled).setWide .watermark v).setMode .immediateTrigger) where
  fillOnArm := rfl
  byte := by
    have hmode : ∀ (m : FifoMode) (k : Chip), (k.setMode m).registers.get Register.deviceStatus =
        k.registers.get Register.deviceStatus :=
      fun _ _ => RegisterFile.get_set_of_ne _ _ (by decide)
    have hwide : ∀ k : Chip, (k.setWide .watermark v).registers.get Register.deviceStatus =
        k.registers.get Register.deviceStatus := fun _ =>
      (RegisterFile.get_set_of_ne _ _ (by decide)).trans
        (RegisterFile.get_set_of_ne _ _ (by decide))
    rw [hmode, hwide, hmode, hmode]
  mode := by
    have hbits : ∀ k : Chip, (k.setMode .immediateTrigger).narrow .fifoMode =
        Field.fifoMode.get (Field.fifoMode.put FifoMode.immediateTrigger.code 0) := by
      intro k
      unfold narrow
      rw [show Field.fifoMode.address = Register.generalConfig from rfl, get_setMode,
        Field.get_put, Field.get_put]
    rw [hbits, hbits]

end SameStatus

end Chip

/-! ## Signals -/

/-- A change of the converter and of nothing else. -/
def Disturbance.onChip (g : Chip → Chip) : Disturbance where
  change b := { b with
    registers := (g b.chip).registers
    fifo := (g b.chip).fifo
    fillOnArm := (g b.chip).fillOnArm }
  record_eq _ := rfl

/-- Something that a converter does by itself. -/
inductive Signal where
  | interrupt
  /-- What its registers and its FIFO hold changes. -/
  | change (g : Chip → Chip)

namespace Signal

/-- The status register is set. -/
def status (v : UInt8) : Signal := change (·.write Register.deviceStatus v)

/-- An interrupt, or a status that is set. -/
inductive Plain : Signal → Prop where
  | interrupt : Plain .interrupt
  | status (v : UInt8) : Plain (.status v)

/-- An interrupt comes while the status shows the FIFO full, if the converter is like `k` before
these signals and interrupts leave it alone. -/
def Fills : Chip → List Signal → Prop
  | _, [] => False
  | k, interrupt :: rest => k.full ∨ Fills k rest
  | k, change g :: rest => Fills (g k) rest

/-- Where only the status is set, nothing but the status counts. -/
theorem Fills.sameStatus {xs : List Signal} (hxs : ∀ x ∈ xs, x.Plain) {k l : Chip}
    (hsame : k.SameStatus l) (h : Fills k xs) : Fills l xs := by
  induction xs generalizing k l with
  | nil => exact h
  | cons x rest ih =>
    obtain ⟨hx, hrest⟩ := List.forall_mem_cons.mp hxs
    cases hx with
    | interrupt => exact h.imp hsame.full_iff.mpr (ih hrest hsame)
    | status v => exact ih hrest (hsame.writeStatus v) h

variable {δ : Type}

/-- The signal as something that happens to a driver. -/
def operation : Signal → Operation δ
  | interrupt => .interrupt
  | change g => .disturb (.onChip g)

/-- The signals that come at the two interrupt points of a capture. -/
abbrev during [Sink δ] (afterArm afterWait : List Signal) : Interrupts (Scene δ) :=
  Operation.during (afterArm.map operation) (afterWait.map operation)

end Signal

/-! ## An interrupt on a healthy board -/

namespace Board

theorem switchedOff_healthy {b : Board} (h : b.Healthy) (report : Cause → Message) :
    (b.switchedOff report).Healthy ∧ (b.switchedOff report).chip = b.chip.setMode .disabled := by
  obtain ⟨c, hmode, hc, hk⟩ := h.setFifoMode .disabled
  unfold switchedOff
  rw [hmode]
  exact ⟨hc, hk⟩

theorem Healthy.changed {b : Board} (h : b.Healthy) (g : Chip → Chip) :
    ((Disturbance.onChip g).change b).Healthy := ⟨h.accesses, h.allocator⟩

end Board

namespace Driver

theorem full_healthy {x : Driver} (h : x.fifo.board.Healthy) : x.full ↔ x.fifo.board.chip.full := by
  obtain ⟨c, hfull, -⟩ := h.fifoFull
  unfold full
  rw [hfull]
  exact ⟨fun h => of_decide_eq_true (Outcome.ok.inj h), fun h => congrArg _ (decide_eq_true h)⟩

theorem consumed_healthy {d : Driver} (h : d.Sound) (hb : d.fifo.board.Healthy) :
    d.consumed.fifo.board.Healthy ∧ d.consumed.fifo.board.chip = d.fifo.board.chip := by
  cases ha : d.awaits with
  | false =>
    rw [consumed_idle ha]
    exact ⟨hb.noted _, rfl⟩
  | true =>
    obtain ⟨harmed, -⟩ := awaits_iff.mp ha
    obtain ⟨b, hbuffers⟩ := Option.isSome_iff_exists.mp (h.sized harmed)
    obtain ⟨c, hread, hc, hk⟩ := (hb.readData b.rawSize).mapError Failure.bus
    have hout := Fifo.readSamples_eq hbuffers (h.shaped b hbuffers).rawSize_eq
    unfold Converter.readData at hout
    rw [hread] at hout
    unfold consumed
    rw [if_pos ha, readOut_eq hout]
    exact ⟨hc, hk⟩

/-- After an interrupt the FIFO is off if it was full, and as it was if not. -/
theorem interrupted_healthy {d : Driver} (h : d.Sound) (hb : d.fifo.board.Healthy) :
    d.interrupted.fifo.board.Healthy ∧
      (d.full → d.interrupted.fifo.board.chip = d.fifo.board.chip.setMode .disabled) ∧
      (¬ d.full → d.interrupted.fifo.board.chip = d.fifo.board.chip) := by
  obtain ⟨c, hfull, hc, hk⟩ := hb.fifoFull
  generalize decide (d.fifo.board.visible Register.deviceStatus &&& Register.fifoFull ≠ 0) = flag
    at hfull
  unfold full interrupted
  rw [hfull]
  cases flag with
  | false =>
    refine ⟨hc.noted _, fun hn => ?_, fun _ => hk⟩
    cases hn
  | true =>
    obtain ⟨he, hchip⟩ := consumed_healthy (h.withBoard c) hc
    obtain ⟨hoff, hmode⟩ := Board.switchedOff_healthy he .interruptFailed
    refine ⟨hoff, fun _ => ?_, fun hn => absurd rfl hn⟩
    exact hmode.trans (congrArg (Chip.setMode .disabled) (hchip.trans hk))

/-- Once an interrupt has found the FIFO full, the capture has its result. -/
theorem interrupted_done {d : Driver} (h : d.Sound) (harmed : d.capture = .armed) (hfull : d.full) :
    d.interrupted.completion.done = true := by
  cases hdone : d.completion.done with
  | true =>
    rw [(interrupted_quiet (.inr (awaits_of_done hdone))).completion]
    exact hdone
  | false =>
    obtain ⟨b, hb⟩ := Option.isSome_iff_exists.mp (h.sized harmed)
    exact (interrupted_published h hfull (awaits_iff.mpr ⟨harmed, hdone⟩) hb).1.done

end Driver

/-! ## A capture that is filled -/

namespace Scene

variable {δ : Type} [Sink δ] {b : Buffers} {k : Nat} {s : Scene δ}

/-- Some of the signals of a pending capture: it has its result after them, or the converter is such
that the rest of them fill it. -/
theorem Phase.filled_or (xs : List Signal) {rest : List Signal} (h : Phase b k s)
    (hhealthy : s.driver.fifo.board.Healthy)
    (hfills : Signal.Fills s.driver.fifo.board.chip (xs ++ rest)) :
    let t := Operation.runAll (xs.map Signal.operation) s
    t.driver.completion.done = true ∨
      t.driver.fifo.board.Healthy ∧ Signal.Fills t.driver.fifo.board.chip rest := by
  induction xs generalizing s with
  | nil => exact .inr ⟨hhealthy, hfills⟩
  | cons x xs ih =>
    cases x with
    | change g => exact ih (h.step _).1 (hhealthy.changed g) hfills
    | interrupt =>
      intro t
      have ht : t = Operation.runAll (xs.map Signal.operation)
        (Scene.note .interrupt s.driver ((Operation.interrupt : Operation δ).call s)) := rfl
      have hnext := (h.step .interrupt).1
      rw [call_interrupt h.sound] at ht hnext
      by_cases hfull : s.driver.full
      · have hdone := Driver.interrupted_done h.sound h.armed hfull
        left
        rw [ht, (hnext.runAll _).2 hdone]
        exact hdone
      · obtain ⟨hhealthy', -, hsame⟩ := Driver.interrupted_healthy h.sound hhealthy
        have hrest := hfills.resolve_left (mt (Driver.full_healthy hhealthy).mpr hfull)
        rw [← hsame hfull] at hrest
        exact ht ▸ ih hnext hhealthy' hrest

/-- A capture that its signals fill has its result when its closing section begins. -/
theorem Phase.filled {afterArm afterWait : List Signal} (h : Phase b k s)
    (hhealthy : s.driver.fifo.board.Healthy)
    (hfills : Signal.Fills s.driver.fifo.board.chip (afterArm ++ afterWait)) :
    (Operation.runAll (afterWait.map Signal.operation)
      (Operation.runAll (afterArm.map Signal.operation) s).waiting).driver.completion.done =
        true := by
  have hp := (h.runAll (afterArm.map Signal.operation)).1.waiting
  rcases h.filled_or afterArm hhealthy hfills with hdone | ⟨hhealthy', hfills'⟩
  · rw [(hp.runAll _).2 hdone]
    exact hdone
  · rw [← List.append_nil afterWait] at hfills'
    exact (hp.filled_or afterWait (hhealthy'.noted _) hfills').resolve_right And.right

end Scene

end AdcCapture
