/-
  Binding the interrupt and taking the binding down, one after the other, where no access and no
  call of the platform fails. Binding sets two fields of the converter, the direction of the pin
  and its function; taking it down sets the function back and leaves the direction. So every
  register is restored but the one of the directions, where the pin stays an output
  (`unregisterIrq_registerIrq`), and a pin that was an input is not restored
  (`unregisterIrq_not_undone`).
-/
import AdcCapture.Proofs.PinRouting

namespace AdcCapture

namespace Board

/-- From now on no access to the converter fails, and no call of the platform. -/
structure Obliging (b : Board) : Prop where
  reliable : b.Reliable
  platform : ∀ k c, b.calls ≤ k → b.refuses k c = false

variable {ε ε' α β : Type}

/-- On this board the call gives this value, and leaves an obliging board with this converter. -/
def Completes (a : Action Board ε α) (b : Board) (v : α) (k : Chip) : Prop :=
  ∃ c, a b = (.ok v, c) ∧ c.Obliging ∧ c.chip = k

namespace Completes

variable {a : Action Board ε α} {b : Board} {v : α} {w : β} {k l : Chip}

theorem bind (ha : Completes a b v k) {f : α → Action Board ε β}
    (hf : ∀ c : Board, c.Obliging → c.chip = k → Completes (f v) c w l) :
    Completes (a >>= f) b w l := by
  obtain ⟨c, ha, hc, hk⟩ := ha
  obtain ⟨d, hd, hrest⟩ := hf c hc hk
  exact ⟨d, (Action.bind_ok _ ha f).trans hd, hrest⟩

theorem recover (ha : Completes a b v k) (f : ε → Action Board ε' α) :
    Completes (a.recover f) b v k := by
  obtain ⟨c, ha, hrest⟩ := ha
  exact ⟨c, Action.recover_ok _ ha f, hrest⟩

end Completes

namespace Obliging

variable {b : Board} (h : b.Obliging)
include h

theorem completes {a : Action Board ε α} {v : α} {k : Chip} (ha : Answers a b v k) :
    Completes a b v k := by
  obtain ⟨c, ha, hc, hk⟩ := ha
  refine ⟨c, ha, ⟨h.reliable.after hc, ?_⟩, hk⟩
  rw [hc.rest]
  exact h.platform

theorem call (c : PlatformCall) (irq : Option UInt32) :
    Completes (Board.platform c irq) b () b.chip := by
  refine ⟨{ b with
    calls := b.calls + 1
    record := .platform c irq true :: b.record }, ?_, ⟨h.reliable, fun k c hk => ?_⟩, rfl⟩
  · unfold Board.platform
    dsimp only
    rw [h.platform b.calls c (Nat.le_refl _)]
    rfl
  · exact h.platform k c (Nat.le_of_succ_le hk)

/-- A call of the platform is followed by the rest, on a board with the same converter. -/
theorem call_bind (c : PlatformCall) (irq : Option UInt32)
    (undo : PlatformCall → Action Board ε Unit) {f : Unit → Action Board ε α} {v : α} {k : Chip}
    (hf : ∀ d : Board, d.Obliging → d.chip = b.chip → Completes (f ()) d v k) :
    Completes ((Board.platform c irq).recover undo >>= f) b v k :=
  ((h.call c irq).recover undo).bind hf

end Obliging

end Board

namespace Fifo

open Board (Completes Obliging)

section Completes

variable {ε : Type} {b : Board} (h : b.Obliging)
include h

theorem releaseLine_completes : Completes (releaseLine : Action Board ε Unit) b () b.chip :=
  (h.call _ _).recover _

theorem teardown_completes (irq : UInt32) :
    Completes (teardown irq true : Action Board ε Unit) b () b.chip := by
  refine h.call_bind _ _ _ fun c hc hk => ?_
  refine hc.call_bind _ _ _ fun d hd hk' => ?_
  refine hd.call_bind _ _ _ fun e he hk'' => ?_
  rw [← hk, ← hk', ← hk'']
  exact releaseLine_completes he

theorem setUpPlatform_completes (irq : UInt32) : Completes (setUpPlatform irq) b () b.chip := by
  refine h.call_bind _ _ _ fun b₁ h₁ hk₁ => ?_
  refine h₁.call_bind _ _ _ fun b₂ h₂ hk₂ => ?_
  refine h₂.call_bind _ _ _ fun b₃ h₃ hk₃ => ?_
  refine h₃.call_bind _ _ _ fun b₄ h₄ hk₄ => ?_
  have htrigger : Completes (do
      Board.platform .irqTrigger (some irq)
      Board.platform .irqEnable (some irq)) b₄ () b₄.chip :=
    (h₄.call _ _).bind fun b₅ h₅ hk₅ => hk₅ ▸ h₅.call _ _
  rw [← hk₁, ← hk₂, ← hk₃, ← hk₄]
  exact htrigger.recover _

theorem routePin_completes (p : Pin) :
    Completes (routePin p) b ()
      ((b.chip.setField p.directionField PinDirection.output.code).setField p.functionField
        PinFunction.fifoFull.code) := by
  have hdirection : p.directionField.Placed := by cases p <;> decide
  have hfunction : p.functionField.Placed := by cases p <;> decide
  refine (h.completes (h.reliable.setField _ hdirection.1 hdirection.2.1)).bind fun c hc hk => ?_
  rw [← hk]
  exact hc.completes (hc.reliable.setField _ hfunction.1 hfunction.2.1)

end Completes

variable {f : Fifo} {p : Pin}

theorem onBoard_completes {ε α : Type} {a : Action Board ε α} {v : α} {k : Chip}
    (h : Completes a f.board v k) :
    ∃ c, onBoard a f = (.ok v, { f with board := c }) ∧ c.Obliging ∧ c.chip = k := by
  obtain ⟨c, hrun, hc, hk⟩ := h
  exact ⟨c, onBoard_eq hrun, hc, hk⟩

theorem registerIrq_completes {i : Nat} (hlive : f.live = true) (hfree : f.binding = none)
    (hp : Pin.ofIndex? i = some p) (h : f.board.Obliging) :
    ∃ c irq, registerIrq i f = (.ok (), { f with board := c, binding := some ⟨p, irq⟩ }) ∧
      c.Obliging ∧ c.chip = (f.board.chip.setField p.directionField
        PinDirection.output.code).setField p.functionField PinFunction.fifoFull.code := by
  obtain ⟨b, hup, hb, hk⟩ := onBoard_completes (setUpPlatform_completes h f.board.irq)
  obtain ⟨c, hroute, hc, hk'⟩ := onBoard_completes (f := { f with board := b })
    ((routePin_completes hb p).recover fun e => do
      teardown f.board.irq true
      .fail e)
  have hguard : (!f.live || f.binding.isSome) = false := by
    rw [hlive, hfree]
    rfl
  rw [hk] at hk'
  refine ⟨c.noted (.interruptBound p f.board.irq), f.board.irq, ?_, ⟨hc.reliable, hc.platform⟩, hk'⟩
  unfold registerIrq
  rw [Action.state_bind, hguard, if_neg Bool.false_ne_true, hp]
  dsimp only
  rw [Action.bind_ok _ hup, Action.bind_ok _ hroute]
  rfl

theorem unregisterIrq_completes {x : Binding} (hx : f.binding = some x) (h : f.board.Obliging) :
    ∃ c, unregisterIrq f = (.ok (), { f with board := c, binding := none }) ∧
      c.chip = f.board.chip.setField x.pin.functionField PinFunction.serialOut.code := by
  have hfunction : x.pin.functionField.Placed := by cases x.pin <;> decide
  have hrestore : Completes (Converter.setPinFunction x.pin .serialOut) f.board () _ :=
    h.completes (h.reliable.setField PinFunction.serialOut.code hfunction.1 hfunction.2.1)
  obtain ⟨b, hset, hb, hk⟩ := onBoard_completes (f := { f with binding := none }) hrestore
  obtain ⟨c, hdown, hc, hk'⟩ := onBoard_completes (ε := Cause)
    (f := { f with board := b, binding := none }) (teardown_completes hb x.irq)
  refine ⟨c, ?_, hk'.trans hk⟩
  unfold unregisterIrq
  rw [Action.state_bind, hx]
  dsimp only
  rw [Action.update_bind, Action.bind_ok _ (Action.attempt_ok _ hset), Action.bind_ok _ hdown]
  rfl

/-- Binding the interrupt to a pin that carried the serial output and taking the binding down again
succeeds, and restores every register but the one of the directions. There the pin stays an output:
everything is as it was before exactly if the pin was an output then. -/
theorem unregisterIrq_registerIrq {i : Nat} (hlive : f.live = true) (hfree : f.binding = none)
    (hp : Pin.ofIndex? i = some p) (h : f.board.Obliging)
    (hfunction : f.board.chip.narrow p.functionField = PinFunction.serialOut.code) :
    ∃ g c, registerIrq i f = (.ok (), g) ∧ unregisterIrq g = (.ok (), { f with board := c }) ∧
      (∀ a, a ≠ Register.pinConfigA → c.registers.get a = f.board.registers.get a) ∧
      c.registers.get Register.pinConfigA = p.directionField.put PinDirection.output.code
        (f.board.registers.get Register.pinConfigA) ∧
      ((∀ a, c.registers.get a = f.board.registers.get a) ↔
        f.board.chip.narrow p.directionField = PinDirection.output.code) := by
  have hapart : p.directionField.address ≠ p.functionField.address := by cases p <;> decide
  have hplaced : p.directionField.Placed := by cases p <;> decide
  have hplaced' : p.functionField.Placed := by cases p <;> decide
  obtain ⟨b, irq, hregister, hb, hk⟩ := registerIrq_completes hlive hfree hp h
  obtain ⟨c, hunregister, hk'⟩ :=
    unregisterIrq_completes (f := { f with board := b, binding := some ⟨p, irq⟩ }) rfl hb
  -- the function is put back as it was found, and the direction stays
  have hchip : c.chip = f.board.chip.setField p.directionField PinDirection.output.code := by
    dsimp only at hk'
    rw [hk', hk, Chip.setField_setField hplaced'.2.2.1, ← hfunction,
      ← Chip.narrow_setField_of_ne hapart PinDirection.output.code,
      Chip.setField_narrow hplaced'.2.2.2.1]
  have hregisters : c.registers = f.board.registers.set Register.pinConfigA
      (p.directionField.put PinDirection.output.code
        (f.board.registers.get Register.pinConfigA)) := congrArg Chip.registers hchip
  have hothers : ∀ a, a ≠ Register.pinConfigA →
      c.registers.get a = f.board.registers.get a := by
    intro a ha
    rw [hregisters, RegisterFile.get_set_of_ne _ _ ha.symm]
  have hdirection : c.registers.get Register.pinConfigA = p.directionField.put
      PinDirection.output.code (f.board.registers.get Register.pinConfigA) := by
    rw [hregisters, RegisterFile.get_set_self _ _ (by decide)]
  refine ⟨_, c, hregister, ?_, hothers, hdirection, fun hall => ?_, fun houtput a => ?_⟩
  · rw [hunregister, hfree]
  · have hheld := congrArg p.directionField.get (hdirection.symm.trans (hall Register.pinConfigA))
    refine hheld.symm.trans ?_
    rw [Field.get_put]
    cases p <;> decide
  · by_cases ha : a = Register.pinConfigA
    · rw [ha, hdirection, ← houtput]
      exact Field.put_get hplaced.2.2.2.1 _
    · exact hothers a ha

/-- The second pin, among others that are in use: it was an input, and is an output after all. -/
theorem unregisterIrq_registerIrq_turned :
    let r := (RegisterFile.empty.set Register.pinConfigA 0x0D).set Register.pinConfigB 0x07
    let f : Fifo := { board := { registers := r } }
    ∃ g c, registerIrq 1 f = (.ok (), g) ∧ unregisterIrq g = (.ok (), { f with board := c }) ∧
      (∀ a, a ≠ Register.pinConfigA → c.registers.get a = r.get a) ∧
      c.registers.get Register.pinConfigA = 0x0F ∧ ¬ ∀ a, c.registers.get a = r.get a := by
  intro r f
  have hboard : f.board.Obliging := ⟨fun _ _ _ => rfl, fun _ _ _ => rfl⟩
  have hfunction : f.board.chip.narrow Pin.gp1.functionField = PinFunction.serialOut.code := by
    decide +kernel
  have hinput : f.board.chip.narrow Pin.gp1.directionField ≠ PinDirection.output.code := by
    decide +kernel
  have hdirection : Pin.gp1.directionField.put PinDirection.output.code
      (r.get Register.pinConfigA) = 0x0F := by decide +kernel
  obtain ⟨g, c, hregister, hunregister, hothers, hturned, hrestored⟩ :=
    unregisterIrq_registerIrq (f := f) (i := 1) (p := .gp1) rfl rfl rfl hboard hfunction
  exact ⟨g, c, hregister, hunregister, hothers, hturned.trans hdirection,
    fun h => hinput (hrestored.mp h)⟩

/-- Taking a binding down does not always restore the registers, though nothing fails. -/
theorem unregisterIrq_not_undone :
    ¬ ∀ (f g h : Fifo) (i : Nat) (p : Pin), f.live = true → f.binding = none →
      Pin.ofIndex? i = some p → f.board.Obliging →
      f.board.chip.narrow p.functionField = PinFunction.serialOut.code →
      registerIrq i f = (.ok (), g) → unregisterIrq g = (.ok (), h) →
      ∀ a, h.board.registers.get a = f.board.registers.get a := by
  intro hundone
  let f : Fifo := { board := {} }
  have hboard : f.board.Obliging := ⟨fun _ _ _ => rfl, fun _ _ _ => rfl⟩
  have hrun : (registerIrq 1 f).1 = .ok () ∧ (unregisterIrq (registerIrq 1 f).2).1 = .ok () ∧
      (unregisterIrq (registerIrq 1 f).2).2.board.registers.get Register.pinConfigA ≠
        f.board.registers.get Register.pinConfigA := by decide +kernel
  obtain ⟨hregister, hunregister, hturned⟩ := hrun
  exact hturned (hundone f _ _ 1 .gp1 rfl rfl rfl hboard (by decide +kernel)
    (Prod.ext hregister rfl) (Prod.ext hunregister rfl) _)

end Fifo

end AdcCapture
