/-
  The FIFO mode agrees with the state of the capture: it is disabled while no capture is pending,
  set to trigger while one waits for its readout, and disabled again once the readout is published.
  The mode is written from many places, and each of them sets the register of the mode the same
  way, so what every passage does to it is a `Board.ModeTo`; these compose. The agreement holds as
  long as no access to that register fails; that the register's other bits stay as they were holds
  always (`run_mode_agrees`).
-/
import AdcCapture.Proofs.PassageEffects

namespace AdcCapture

open Converter (SetFieldEnds SetWideEnds)

/-- The bits of the general configuration that do not belong to the FIFO mode. -/
def Chip.otherConfig (k : Chip) : UInt8 :=
  k.registers.get Register.generalConfig &&& ~~~Field.fifoMode.mask

/-! ## Boards -/

namespace Board

/-- The failed accesses to the register of the FIFO mode. -/
def modeFailures (b : Board) : Nat := b.failures Register.generalConfig

/-- On the way from `b` to `c` the FIFO mode became `m`, unless an access to its register failed. -/
structure ModeTo (m : FifoMode) (b c : Board) : Prop where
  config : c.chip.otherConfig = b.chip.otherConfig
  failures : b.modeFailures ≤ c.modeFailures
  mode : c.modeFailures = b.modeFailures → c.chip.mode = m

variable {m m' : FifoMode} {b c d : Board}

namespace ModeTo

theorem trans (h : ModeTo m b c) (h' : ModeTo m' c d) : ModeTo m' b d where
  config := h'.config.trans h.config
  failures := Nat.le_trans h.failures h'.failures
  mode hsame := by
    have hle := h.failures
    have hle' := h'.failures
    exact h'.mode (by omega)

/-- Nothing is done to the register. -/
theorem of_register
    (hregister : c.registers.get Register.generalConfig = b.registers.get Register.generalConfig)
    (hfailures : b.modeFailures ≤ c.modeFailures) : ModeTo b.chip.mode b c where
  config := congrArg (fun v => v &&& ~~~Field.fifoMode.mask) hregister
  failures := hfailures
  mode _ := congrArg (fun v => FifoMode.ofBits (Field.fifoMode.get v)) hregister

theorem of_after {xs : List BusAccess} (h : b.After xs b.chip c) : ModeTo b.chip.mode b c :=
  .of_register (congrArg (fun k => k.registers.get Register.generalConfig) h.chip)
    (h.failures_le _)

theorem of_elsewhere (h : Rules.elsewhere.allows b c) : ModeTo b.chip.mode b c :=
  .of_register (registers_elsewhere h rfl) (h (.failing _) fun _ _ => trivial)

/-- After `c` the mode stays as it was there. -/
theorem stays (h : ModeTo m b c) (h' : ModeTo c.chip.mode c d) : ModeTo m b d where
  config := (h.trans h').config
  failures := (h.trans h').failures
  mode hsame := by
    have hle := h.failures
    have hle' := h'.failures
    exact ((h.trans h').mode hsame).trans (h.mode (by omega))

/-- A failure at the register excuses any mode. -/
theorem of_error {v : UInt8} {e : Cause} (h : SetFieldEnds .fifoMode v b (.error e, c)) :
    ModeTo m b c where
  config := h.outside (by decide)
  failures := h.failures_le _
  mode hsame := absurd (h.failed.symm.trans hsame) (Nat.succ_ne_self _)

theorem of_setMode {o : Outcome Cause Unit} (h : SetFieldEnds .fifoMode m.code b (o, c)) :
    ModeTo m b c := by
  cases o with
  | error e => exact .of_error h
  | fault x => cases h
  | ok _ =>
    exact {
      config := h.outside (by decide)
      failures := h.failures_le _
      mode := fun _ => (congrArg Chip.mode h.done).trans (Chip.mode_setMode m b.chip) }

theorem of_setWide {v : UInt16} {o : Outcome Cause Unit}
    (h : SetWideEnds .watermark v b (o, c)) : ModeTo b.chip.mode b c :=
  .of_register (h.registers (by decide) (by decide)) (h.failures_le _)

end ModeTo

end Board

open Board (ModeTo)

/-- A change of the watermark that goes as far as to the bus turns the FIFO off. -/
theorem Fifo.SetWatermarkEnds.modeTo {w : Nat} {f g : Fifo} {o : Outcome Cause Unit}
    (h : SetWatermarkEnds w f (o, g)) : g = f ∨ ModeTo .disabled f.board g.board := by
  cases h with
  | refused => exact .inl rfl
  | undisabled hoff => exact .inr (.of_error hoff)
  | noMemory hoff hnew => exact .inr ((ModeTo.of_setMode hoff).stays (.of_after hnew))
  | unprogrammed hoff hnew hset =>
    exact .inr (((ModeTo.of_setMode hoff).stays (.of_after hnew)).stays (.of_setWide hset))
  | done _ _ hoff hnew hset =>
    have hprogrammed := ((ModeTo.of_setMode hoff).stays (.of_after hnew)).stays (.of_setWide hset)
    exact .inr (hprogrammed.stays (.of_after (Board.after_noted _ _)))

/-! ## Drivers -/

/-- The operations with which a client can change the register of the FIFO mode past the driver. -/
def Operation.setsMode {δ : Type} : Operation δ → Bool
  | storeAttribute index _ => Attribute.ofIndex? index = some .fifoMode
  | op => op.isForeign

namespace Driver

variable {δ : Type} {J : List (Entry δ)} {d x y : Driver}

/-- The FIFO mode that goes with the state of the capture. -/
def dueMode (d : Driver) : FifoMode := if d.awaits then .immediateTrigger else .disabled

theorem dueMode_unawaited (h : d.awaits = false) : d.dueMode = .disabled := by
  unfold dueMode
  rw [h]
  rfl

theorem dueMode_idle (h : d.capture = .idle) : d.dueMode = .disabled :=
  dueMode_unawaited (awaits_of_idle h)

/-- The mode is the one that is due, unless accesses to its register have failed since there had
been `k` failures; its other bits are the given ones in any case. -/
structure ModeKept (k : Nat) (config : UInt8) (d : Driver) : Prop where
  config : d.fifo.board.chip.otherConfig = config
  failures : k ≤ d.fifo.board.modeFailures
  mode : d.fifo.board.modeFailures = k → d.fifo.board.chip.mode = d.dueMode

theorem ModeKept.step {k : Nat} {config : UInt8} {m : FifoMode} (h : ModeKept k config x)
    (hboard : ModeTo m x.fifo.board y.fifo.board)
    (hdue : x.fifo.board.chip.mode = x.dueMode → m = y.dueMode) : ModeKept k config y where
  config := hboard.config.trans h.config
  failures := Nat.le_trans h.failures hboard.failures
  mode hk := by
    have hle := h.failures
    have hle' := hboard.failures
    exact (hboard.mode (by omega)).trans (hdue (h.mode (by omega)))

theorem ModeKept.interrupted {k : Nat} {config : UInt8} (h : ModeKept k config d)
    (hd : d.Sound) : ModeKept k config d.interrupted := by
  cases interrupted_ends hd with
  | asked hfull hask =>
    have hdue : d.interrupted.dueMode = d.dueMode := by
      rw [interrupted_not_full hfull]
      rfl
    exact h.step (.of_after hask) fun hmode => hmode.trans hdue.symm
  | unheard hfull hidle hask hoff hlast =>
    have hdue : d.interrupted.dueMode = .disabled := by
      rw [interrupted_unawaited hidle]
      exact dueMode_unawaited hidle
    have hmode := ((ModeTo.of_after hask).trans (.of_setMode hoff)).stays (.of_after hlast)
    exact h.step hmode fun _ => hdue.symm
  | heard hfull hawaits hask hoff hlast =>
    obtain ⟨b, hb⟩ := Option.isSome_iff_exists.mp (hd.sized (awaits_iff.mp hawaits).1)
    have hdone := (interrupted_published hd hfull hawaits hb).1.done
    have hmode := ((ModeTo.of_after hask).trans (.of_setMode hoff)).stays (.of_after hlast)
    exact h.step hmode fun _ => (dueMode_unawaited (awaits_of_done hdone)).symm

theorem Effect.modeKept {k : Nat} {config : UInt8} (h : Effect J x y)
    (hspares : ∀ e ∈ J, e.Spares Operation.setsMode Register.generalConfig) (hx : x.Sound)
    (hkept : ModeKept k config x) : ModeKept k config y := by
  cases h with
  | aside h => exact hkept.step (.of_elsewhere h) fun hmode => hmode
  | @foreign op _ _ hop hended hgrow =>
    have hsets : op.setsMode = true := by
      cases op with
      | storeAttribute index input => cases hop
      | _ => exact hop
    exact hkept.step (.of_register (hspares _ hended hsets) (hgrow _)) fun hmode => hmode
  | @stored _ _ _ note _ _ hindex hended h =>
    have hsets : decide (Attribute.ofIndex? _ = some Attribute.fifoMode) = true :=
      decide_eq_true hindex
    have hnoted := (Board.after_noted note x.fifo.board).failures_le Register.generalConfig
    have hgrow := Nat.le_trans hnoted (h.failures_le Register.generalConfig)
    exact hkept.step (.of_register (hspares _ hended hsets) hgrow) fun hmode => hmode
  | timed => exact ⟨hkept.config, hkept.failures, hkept.mode⟩
  | interrupted => exact hkept.interrupted hx
  | @resized w b o f hidle hb h _ =>
    have hnoted := ModeTo.of_after hb
    rcases h.modeTo with rfl | hmode
    · exact hkept.step hnoted fun hmode => hmode
    · exact hkept.step (hnoted.trans hmode) fun _ => (dueMode_idle hidle).symm
  | unsized hidle =>
    refine hkept.step (.of_after (.refl _)) fun hmode => ?_
    exact hmode.trans (dueMode_idle hidle)
  | unarmed _ h => exact hkept.step (ModeTo.of_error h) fun _ => rfl
  | begun _ h => exact hkept.step (.of_setMode h) fun _ => rfl
  | closed harmed hdone h =>
    refine hkept.step (.of_after h) fun hmode => ?_
    exact hmode.trans (dueMode_unawaited (awaits_of_done hdone))
  | abandoned _ _ hb hoff hlast =>
    have hmode := ((ModeTo.of_after hb).trans (.of_setMode hoff)).stays (.of_after hlast)
    exact hkept.step hmode fun _ => rfl

theorem Started.modeKept {c : Config} {b : Board} (h : Started c b d) :
    ModeKept d.fifo.board.modeFailures b.chip.otherConfig d := by
  obtain ⟨b', f, hbefore, hset, -, hafter⟩ := h.sized
  have hsized : f.board.chip.otherConfig = b'.chip.otherConfig := by
    rcases hset.modeTo with rfl | hmode
    · rfl
    · exact hmode.config
  have hregister := Board.registers_elsewhere hafter (a := Register.generalConfig) rfl
  exact {
    config := (ModeTo.of_elsewhere hafter).config.trans
      (hsized.trans (ModeTo.of_elsewhere hbefore).config)
    failures := Nat.le_refl _
    mode := fun _ => by
      rw [dueMode_idle h.idle, ← hset.mode]
      exact congrArg (fun v => FifoMode.ofBits (Field.fifoMode.get v)) hregister }

end Driver

/-- How the FIFO mode and the state of the capture go together. -/
structure Driver.ModeAgrees (d : Driver) : Prop where
  idle : d.capture = .idle → d.fifo.board.chip.mode = .disabled
  waiting : d.capture = .armed → d.completion.done = false →
    d.fifo.board.chip.mode = .immediateTrigger
  served : d.capture = .armed → d.completion.done = true → d.fifo.board.chip.mode = .disabled

theorem Driver.modeAgrees_of_due {d : Driver} (h : d.fifo.board.chip.mode = d.dueMode) :
    d.ModeAgrees where
  idle hidle := h.trans (dueMode_idle hidle)
  waiting harmed hopen := h.trans (if_pos (awaits_iff.mpr ⟨harmed, hopen⟩))
  served _ hdone := h.trans (dueMode_unawaited (awaits_of_done hdone))

/-! ## Runs -/

/-- In every run in which no client stores the FIFO mode or writes its register past the driver,
and anything can fail: the register keeps its other bits, and as long as no access to it has failed
since the start the FIFO mode goes with the state of the capture. -/
theorem Operation.run_mode_agrees {δ : Type} [Sink δ] {c : Config} {b : Board} {d : Driver}
    (h : (Driver.init c b).1 = .ok d) (sinks : Nat → δ) (ops : List (Operation δ))
    (hspares : ∀ e ∈ (runAll ops (Scene.start d sinks)).journal,
      e.Spares setsMode Register.generalConfig) :
    ∀ e ∈ (runAll ops (Scene.start d sinks)).journal, ∀ x ∈ e.drivers,
      x.fifo.board.chip.otherConfig = b.chip.otherConfig ∧
      (x.fifo.board.modeFailures = d.fifo.board.modeFailures → x.ModeAgrees) := by
  intro e he x hx
  have hkept := (run_traced h sinks ops).invariant (Driver.init_started h).modeKept
    (fun x y hx hpassage => (hpassage.effect hx).modeKept hspares hx) e he x hx
  exact ⟨hkept.config, fun hsame => Driver.modeAgrees_of_due (hkept.mode hsame)⟩

/-- A capture whose readout fails, with one more interrupt after its wait; a capture that times out;
and an interrupt that comes too late. Other bits of the register are set from the start. -/
theorem Operation.run_mode_agrees_late :
    let b : Board := { (Board.probed [1, 2]).stumbling 14 with
      registers := (Board.probed []).registers.set Register.generalConfig 0xA8 }
    ∃ d, (Driver.init { watermark := 2 } b).1 = .ok d ∧
      let J := (runAll [.capture [.interrupt] [.interrupt], .capture [] [], .interrupt]
        (Scene.start d fun _ => ({ capacity := 0 } : Store))).journal
      (∀ e ∈ J, e.Spares setsMode Register.generalConfig) ∧
      (∀ e ∈ J, ∀ x ∈ e.drivers, x.fifo.board.chip.otherConfig = b.chip.otherConfig ∧
        (x.fifo.board.modeFailures = d.fifo.board.modeFailures → x.ModeAgrees)) ∧
      (∀ x ∈ states J, x.fifo.board.modeFailures = d.fifo.board.modeFailures) ∧
      ((states J).map fun x => (x.capture, x.completion.done, x.fifo.board.chip.mode)) =
        [(.idle, false, .disabled), (.idle, false, .disabled), (.armed, false, .immediateTrigger),
          (.armed, false, .immediateTrigger), (.armed, false, .immediateTrigger),
          (.idle, true, .disabled), (.armed, true, .disabled), (.armed, true, .disabled),
          (.armed, true, .disabled), (.armed, true, .disabled), (.armed, false, .immediateTrigger),
          (.idle, false, .disabled)] := by
  intro b
  have hrun : ((Driver.init { watermark := 2 } b).1.map fun d =>
      let J := (runAll [.capture [.interrupt] [.interrupt], .capture [] [], .interrupt]
        (Scene.start d fun _ => ({ capacity := 0 } : Store))).journal
      (decide (∀ e ∈ J, e.Spares setsMode Register.generalConfig),
        decide (∀ x ∈ states J, x.fifo.board.modeFailures = d.fifo.board.modeFailures),
        (states J).map fun x => (x.capture, x.completion.done, x.fifo.board.chip.mode))) =
      .ok (true, true, [(.idle, false, .disabled), (.idle, false, .disabled),
        (.armed, false, .immediateTrigger), (.armed, false, .immediateTrigger),
        (.armed, false, .immediateTrigger), (.idle, true, .disabled), (.armed, true, .disabled),
        (.armed, true, .disabled), (.armed, true, .disabled), (.armed, true, .disabled),
        (.armed, false, .immediateTrigger), (.idle, false, .disabled)]) := by decide +kernel
  obtain ⟨d, hinit, hrun⟩ := Outcome.of_map_ok hrun
  obtain ⟨hspares, hrun⟩ := Prod.mk.inj hrun
  obtain ⟨hsame, hstates⟩ := Prod.mk.inj hrun
  have hspares := of_decide_eq_true hspares
  exact ⟨d, hinit, hspares, run_mode_agrees hinit _ _ hspares, of_decide_eq_true hsame, hstates⟩

end AdcCapture
