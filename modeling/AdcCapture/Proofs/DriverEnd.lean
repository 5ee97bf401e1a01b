/-
  The end of a driver. Every driver that a run leaves is bound, and its end goes through all of its
  steps, whichever of them fail: the pin is set back, the platform is taken down, the FIFO is
  turned off, and the board is handed back (`Board.Ended`). The four platform calls are made in
  their order, those on the interrupt with the number of the binding; an attempt to set a field is
  the read of its register and, if that went well, the write (`Field.Tries`), and no other access is
  made. Where no access fails the two fields are set and every other bit is left alone.
-/
import AdcCapture.Proofs.PinRouting
import AdcCapture.Proofs.PlatformBrackets
import AdcCapture.Proofs.TruthfulCalls

namespace AdcCapture

variable {δ : Type}

open Converter (SetFieldEnds)
open Board.Rules (free_aloof)

/-! ## Calls of the platform, and their numbers -/

namespace Board

/-- The platform is left alone, and the line keeps its number. -/
def Rules.unasked : Rules where
  permits x := x.callsPlatform = false
  allows b c := c.irq = b.irq ∧ c.lineCalls = b.lineCalls
  refl _ := ⟨rfl, rfl⟩
  trans h h' := ⟨h'.1.trans h.1, h'.2.trans h.2⟩
  counted _ := ⟨rfl, rfl⟩
  noted _ _ _ h := ⟨rfl, lineCalls_cons h⟩
  written _ _ _ _ := ⟨rfl, rfl⟩
  called _ _ _ _ h := nomatch h
  reserved _ _ _ := ⟨rfl, rfl⟩

theorem Rules.free_unasked : unasked.Free := fun _ h => h

theorem lineCalls_noted (m : Message) (b : Board) : (b.noted m).lineCalls = b.lineCalls :=
  lineCalls_cons rfl

/-- Unbinding calls the platform on the interrupt of the binding. -/
theorem lineCalls_unbound (x : Binding) (b : Board) :
    (b.unbound x).lineCalls = b.lineCalls ++ [(.irqDisable, some x.irq),
      (.irqUnregister, some x.irq), (.irqRemove, none), (.gpioRelease, none)] := by
  have hpin := (Rules.free_unasked.setField x.pin.functionField PinFunction.serialOut.code b
    trivial).allowed
  obtain ⟨c, back, hdown, -, -, hc⟩ := Fifo.teardown_goesThrough (ε := Cause) x.irq true
    (Converter.setPinFunction x.pin .serialOut b).2
  have hkept : ∀ o, (reported .unbindFailed (o, c)).lineCalls = c.lineCalls := by
    intro o
    cases o with
    | error e => exact lineCalls_noted _ c
    | _ => rfl
  unfold unbound
  dsimp only
  rw [hdown, hkept, hc]
  exact congrArg (· ++ _) hpin.2

end Board

/-! ## Attempts to set a field -/

/-- The accesses of an attempt to set a field, the latest first: its register could not be read, or
it was read and then written, which may have failed. -/
inductive Field.Tries (f : Field) (v : UInt8) : List BusAccess → Prop where
  | unread : Tries f v [.read f.address none]
  | written (byte : UInt8) (done : Bool) :
    Tries f v [.write f.address (f.put v byte) done, .read f.address (some byte)]

theorem Converter.SetFieldEnds.tries {f : Field} {v : UInt8} {b : Board}
    {x : Outcome Cause Unit × Board} (h : SetFieldEnds f v b x) :
    ∃ xs, f.Tries v xs ∧ b.After xs x.2.chip x.2 := by
  cases h with
  | unread h => exact ⟨_, .unread, rfl, h.traffic⟩
  | unwritten h => exact ⟨_, .written _ false, rfl, h.traffic⟩
  | set h => exact ⟨_, .written _ true, rfl, h.traffic⟩

namespace Board

theorem after_reported (report : Cause → Message) (o : Outcome Cause Unit) (b : Board) :
    b.After [] b.chip (reported report (o, b)) := by
  cases o with
  | error e => exact after_noted _ b
  | _ => exact .refl b

/-- Unbinding tries to set the pin back, and makes no other access. -/
theorem after_unbound (x : Binding) (b : Board) :
    ∃ xs, x.pin.functionField.Tries PinFunction.serialOut.code xs ∧
      b.After xs (Converter.setPinFunction x.pin .serialOut b).2.chip (b.unbound x) := by
  have hpin : SetFieldEnds x.pin.functionField PinFunction.serialOut.code b
      (Converter.setPinFunction x.pin .serialOut b) :=
    Converter.setField_ends _ (Fifo.wired_pins x.pin).2 (by cases x.pin <;> decide) b
  obtain ⟨xs, htries, hxs⟩ := hpin.tries
  have hdown := (Fifo.teardown_obeys (ε := Cause) platform_aside log_aside x.irq true
    (Converter.setPinFunction x.pin .serialOut b).2 trivial).allowed
  exact ⟨xs, htries, hxs.trans (aside.trans hdown (after_reported .unbindFailed _ _))⟩

/-- Turning the FIFO off is tried, and no other access is made. -/
theorem after_switchedOff (report : Cause → Message) (b : Board) :
    ∃ xs, Field.fifoMode.Tries FifoMode.disabled.code xs ∧
      b.After xs (Converter.setFifoMode .disabled b).2.chip (b.switchedOff report) := by
  obtain ⟨xs, htries, hxs⟩ := (Converter.setFifoMode_effect .disabled b).tries
  rw [switchedOff_eq]
  exact ⟨xs, htries, hxs.trans (after_reported report _ _)⟩

end Board

/-! ## The converter after the end -/

/-- The FIFO is off and the pin carries the serial output; every other bit of the registers is as it
was. -/
structure Chip.Restored (p : Pin) (k l : Chip) : Prop where
  mode : l.mode = .disabled
  function : PinFunction.ofCode? (l.narrow p.functionField) = some .serialOut
  registers : ∀ a, a ≠ Register.generalConfig → a ≠ p.functionField.address →
    l.registers.get a = k.registers.get a
  general : l.registers.get Register.generalConfig &&& ~~~Field.fifoMode.mask =
    k.registers.get Register.generalConfig &&& ~~~Field.fifoMode.mask
  pin : l.registers.get p.functionField.address &&& ~~~p.functionField.mask =
    k.registers.get p.functionField.address &&& ~~~p.functionField.mask

theorem Chip.restored (p : Pin) (k : Chip) :
    Restored p k ((k.setField p.functionField PinFunction.serialOut.code).setMode .disabled) := by
  have hapart : Field.fifoMode.address ≠ p.functionField.address := by cases p <;> decide
  have hplaced : p.functionField.address.toNat < 128 := by cases p <;> decide
  generalize hl : k.setField p.functionField PinFunction.serialOut.code = l
  have hgeneral : l.registers.get Register.generalConfig =
      k.registers.get Register.generalConfig :=
    hl ▸ RegisterFile.get_set_of_ne _ _ hapart.symm
  have hpin : l.registers.get p.functionField.address = p.functionField.put
      PinFunction.serialOut.code (k.registers.get p.functionField.address) :=
    hl ▸ RegisterFile.get_set_self _ _ hplaced
  have hset : (l.setMode .disabled).registers.get p.functionField.address =
      l.registers.get p.functionField.address := RegisterFile.get_set_of_ne _ _ hapart
  constructor
  · exact l.mode_setMode .disabled
  · unfold narrow
    rw [hset, hpin, Field.get_put]
    cases p <;> rfl
  · intro a hmode hfunction
    refine (RegisterFile.get_set_of_ne _ _ hmode.symm).trans ?_
    exact hl ▸ RegisterFile.get_set_of_ne _ _ hfunction.symm
  · rw [get_setMode, Field.put_outside, hgeneral]
  · rw [hset, hpin, Field.put_outside]

/-! ## The end -/

namespace Board

/-- The board `c` is what the end of a driver that is bound like `x` has made of the board `b`. -/
structure Ended (x : Binding) (b c : Board) : Prop where
  calls : c.lineCalls = b.lineCalls ++ [(.irqDisable, some x.irq), (.irqUnregister, some x.irq),
    (.irqRemove, none), (.gpioRelease, none)]
  /-- Both fields are tried, the pin's function first, whatever becomes of it. -/
  tried : ∃ pin off, x.pin.functionField.Tries PinFunction.serialOut.code pin ∧
    Field.fifoMode.Tries FifoMode.disabled.code off ∧ c.traffic = off ++ pin ++ b.traffic
  restored : b.Reliable → Chip.Restored x.pin b.chip c.chip

/-- Where no access fails, the fields are set one after the other. -/
theorem Reliable.ended {b : Board} (h : b.Reliable) (x : Binding) :
    ((b.unbound x).switchedOff .unsetFailed).chip =
      (b.chip.setField x.pin.functionField PinFunction.serialOut.code).setMode .disabled := by
  have hplaced : x.pin.functionField.Placed := by cases x.pin <;> decide
  obtain ⟨c, hset, haccessed, hchip⟩ :=
    h.setField PinFunction.serialOut.code hplaced.1 hplaced.2.1
  have hpin : Converter.setPinFunction x.pin .serialOut b = (.ok (), c) := hset
  obtain ⟨d, hdown, hsilent⟩ := Fifo.teardown_silent (ε := Cause) x.irq true c
  have hchip' := (Fifo.teardown_obeys (ε := Cause) platform_aside log_aside x.irq true c
    trivial).allowed.chip
  rw [hdown] at hchip'
  have hunbound : b.unbound x = d := by
    unfold unbound
    rw [hpin]
    dsimp only
    rw [hdown]
    rfl
  obtain ⟨e, hmode, -, hoff⟩ := ((h.after haccessed).makes hsilent).setFifoMode .disabled
  rw [hunbound, switchedOff_eq, hmode, ← hchip, ← hchip']
  exact hoff

/-- The end of a driver, on any board. -/
theorem ended (x : Binding) (b : Board) :
    Ended x b (((b.unbound x).switchedOff .unsetFailed).noted .removed) where
  calls := by
    have hoff := (Rules.free_unasked.switchedOff .unsetFailed (b.unbound x)).2
    exact (lineCalls_noted .removed _).trans (hoff.trans (lineCalls_unbound x b))
  tried := by
    obtain ⟨pin, hpin, hunbound⟩ := after_unbound x b
    obtain ⟨off, hoff, hswitched⟩ := after_switchedOff .unsetFailed (b.unbound x)
    refine ⟨pin, off, hpin, hoff, ?_⟩
    exact ((hunbound.trans hswitched).trans (after_noted .removed _)).traffic
  restored h := (h.ended x).symm ▸ Chip.restored x.pin b.chip

end Board

/-! ## What a driver is bound to -/

/-- An interrupt is bound to the pin that was asked for, and to the line that the board has. -/
theorem Fifo.registerIrq_bound {f g : Fifo} {i : Nat} (h : registerIrq i f = (.ok (), g)) :
    ∃ p, Pin.ofIndex? i = some p ∧ g.binding = some ⟨p, f.board.irq⟩ := by
  unfold registerIrq at h
  rw [Action.state_bind] at h
  split at h
  · cases h
  · cases hp : Pin.ofIndex? i with
    | none =>
      rw [hp] at h
      cases h
    | some p =>
      rw [hp] at h
      obtain ⟨_, _, _, h⟩ := Action.of_bind_ok _ h
      obtain ⟨_, _, _, h⟩ := Action.of_bind_ok _ h
      obtain ⟨_, _, _, h⟩ := Action.of_bind_ok _ h
      cases h
      exact ⟨p, rfl, rfl⟩

namespace Driver

open Board.Rules (unasked free_unasked)

/-- A start binds the pin of the configuration and the line of the board. -/
theorem bringUp_bound {c : Config} {b : Board} {g : Fifo}
    (h : bringUp c { board := b } = (.ok (), g)) :
    ∃ p, Pin.ofIndex? c.fifoFullPin = some p ∧ g.binding = some ⟨p, b.irq⟩ := by
  have hfresh : Fifo.Shaped { board := b } := fun _ hb => nomatch hb
  obtain ⟨_, f₁, h₁, h⟩ := Action.of_bind_ok _ h
  obtain ⟨_, f₂, h₂, h⟩ := Action.of_bind_ok _ h
  obtain ⟨_, f₃, h₃, h⟩ := Action.of_bind_ok _ h
  have hchecked := Fifo.onBoard_obeys (unasked.init rfl) _ hfresh
  rw [h₁] at hchecked
  have hsized : Fifo.setWatermark c.watermark f₁ = (.ok (), f₂) := by
    rcases Action.of_recover_ok _ h₂ with h₂ | ⟨e, t, -, h₂⟩
    · exact h₂
    · cases h₂
  have hresized := Fifo.setWatermark_obeys (R := unasked) c.watermark
    ⟨rfl, free_unasked.wide _, rfl⟩ f₁ hchecked.inv
  rw [hsized] at hresized
  have hbound : Fifo.registerIrq c.fifoFullPin f₂ = (.ok (), f₃) := by
    rcases Action.of_recover_ok _ h₃ with h₃ | ⟨e, t, -, h₃⟩
    · exact h₃
    · obtain ⟨_, _, _, h₃⟩ := Action.of_bind_ok _ h₃
      cases h₃
  obtain ⟨p, hp, hbinding⟩ := Fifo.registerIrq_bound hbound
  have hirq : f₂.board.irq = b.irq := hresized.allowed.2.1.trans hchecked.allowed.2.1
  cases h
  exact ⟨p, hp, hirq ▸ hbinding⟩

/-- Whatever has been done to a driver since its start, it is bound as it was then. -/
theorem runAll_bound [Sink δ] {c : Config} {b : Board} {d₀ d : Driver}
    (hinit : (init c b).1 = .ok d₀) {sinks : Nat → δ} {ops : List (Operation δ)}
    (hd : Entry.passed d ∈ (Operation.runAll ops (Scene.start d₀ sinks)).journal) :
    ∃ p, Pin.ofIndex? c.fifoFullPin = some p ∧ d.fifo.binding = some ⟨p, b.irq⟩ := by
  have hsound := init_sound hinit
  unfold init at hinit
  rcases hup : bringUp c { board := b } with ⟨o, f⟩
  rw [hup] at hinit
  cases o with
  | ok v =>
    cases hinit
    obtain ⟨p, hp, hbinding⟩ := bringUp_bound hup
    obtain ⟨hsame, -⟩ := Operation.run_steady free_aloof Board.Rules.aloof_disturbed hsound sinks
      ops _ hd d (List.mem_singleton_self d)
    exact ⟨p, hp, hsame.trans hbinding⟩
  | error e => cases hinit
  | fault x => cases hinit

/-- However a run has left a driver, and whatever its board is then, with any accesses and calls of
the platform failing on it: the end of the driver completes, hands the board back, has called the
platform to disable, to unregister, to remove and to release, and has tried to turn the FIFO off
also if the pin could not be set back. The calls on the interrupt are passed the number that the
driver was bound to at its start, whatever number the line of its board has by then; the other two
take none. If no access fails the FIFO is off, the pin carries the serial output, and no other bit
of the registers has changed. -/
theorem fini_completes [Sink δ] {c : Config} {b₀ : Board} {d₀ d : Driver}
    (hinit : (init c b₀).1 = .ok d₀) (sinks : Nat → δ) (ops : List (Operation δ))
    (hd : Entry.passed d ∈ (Operation.runAll ops (Scene.start d₀ sinks)).journal) :
    ∃ p, Pin.ofIndex? c.fifoFullPin = some p ∧ d.fifo.binding = some ⟨p, b₀.irq⟩ ∧
      ∀ b : Board, ∃ e, (d.withBoard b).fini = (.ok (), e) ∧ b.Ended ⟨p, b₀.irq⟩ e := by
  obtain ⟨p, hp, hbound⟩ := runAll_bound hinit hd
  exact ⟨p, hp, hbound, fun b => ⟨_, fini_eq (d := d.withBoard b) hbound, b.ended ⟨p, b₀.irq⟩⟩⟩

end Driver

/-- The board with a bus on which every access fails, a platform that refuses every call, and
another number for its line. -/
def Board.broken (b : Board) : Board :=
  { b with
    faults := { planned := fun _ _ => some 7 }
    refuses := fun _ _ => true
    irq := 9 }

/-- A driver that has just been started, when every access fails and every call of the platform is
refused: both fields are still tried, and the calls are made with the number that was bound. -/
theorem Driver.fini_completes_broken :
    ∃ d, (Driver.init { watermark := 2 } (Board.probed [])).1 = .ok d ∧
      ∃ p e, Pin.ofIndex? 3 = some p ∧ d.fifo.binding = some ⟨p, 7⟩ ∧
        (d.withBoard d.fifo.board.broken).fini = (.ok (), e) ∧
        d.fifo.board.broken.Ended ⟨p, 7⟩ e ∧
        e.lineCalls.drop 6 = [(.irqDisable, some 7), (.irqUnregister, some 7), (.irqRemove, none),
          (.gpioRelease, none)] ∧
        e.traffic.take 2 = [.read Register.generalConfig none, .read Register.pinConfigC none] := by
  have hrun : ((Driver.init { watermark := 2 } (Board.probed [])).1.map fun d =>
      let e := (d.withBoard d.fifo.board.broken).fini.2
      (e.lineCalls.drop 6, e.traffic.take 2)) =
        .ok ([(.irqDisable, some 7), (.irqUnregister, some 7), (.irqRemove, none),
          (.gpioRelease, none)],
          [.read Register.generalConfig none, .read Register.pinConfigC none]) := by
    decide +kernel
  obtain ⟨d, hinit, hrun⟩ := Outcome.of_map_ok hrun
  obtain ⟨p, hp, hbound, hfini⟩ := Driver.fini_completes (δ := Store) hinit
    (fun _ => { capacity := 0 }) [] (List.mem_singleton.mpr rfl)
  obtain ⟨e, he, hended⟩ := hfini d.fifo.board.broken
  rw [he] at hrun
  obtain ⟨hcalls, htraffic⟩ := Prod.mk.inj hrun
  exact ⟨d, hinit, p, e, hp, hbound, he, hended, hcalls, htraffic⟩

end AdcCapture
