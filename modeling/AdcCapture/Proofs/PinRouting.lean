/-
  What a registration of the interrupt that fails leaves behind. The platform side never touches
  the converter (`Board.aside`), so a registration that fails there leaves every register alone.
  One that fails on the bus has either changed nothing, or it has turned the pin into an output and
  could then not set the pin's function: the direction stays, for the way back goes through the
  platform only (`registerIrq_error`). So registers are not always restored
  (`registerIrq_not_unwound`).
-/
import AdcCapture.Proofs.BusTraffic

namespace AdcCapture

namespace Board

theorem platform_aside (c : PlatformCall) (irq : Option UInt32) : (platform c irq).Obeys aside := by
  intro b _
  refine ⟨?_, trivial, rfl, traffic_cons_none rfl⟩
  unfold platform
  dsimp only
  split <;> rfl

end Board

namespace Fifo

open Board (aside)

variable {b c : Board} {p : Pin}

/-- The accesses that routing a pin failed at: those to the direction came first. -/
theorem routePin_error {e : Cause} (h : routePin p b = (.error e, c)) :
    (c.chip = b.chip ∧
        c.failures p.functionField.address = b.failures p.functionField.address) ∨
      (c.chip = b.chip.setField p.directionField PinDirection.output.code ∧
        c.failures p.functionField.address = b.failures p.functionField.address + 1) := by
  have hne : p.functionField.address ≠ p.directionField.address := by cases p <;> decide
  have hdirection := Converter.setField_ends PinDirection.output.code (wired_pins p).1
    (by cases p <;> decide) b
  rcases Action.of_bind_error _ h with h | ⟨_, d, hset, h⟩
  · left
    rw [show Converter.setField p.directionField PinDirection.output.code b = (.error e, c)
      from h] at hdirection
    exact ⟨hdirection.unset, hdirection.failures_of_ne hne⟩
  · right
    have hfunction := Converter.setField_ends PinFunction.fifoFull.code (wired_pins p).2
      (by cases p <;> decide) d
    rw [show Converter.setField p.directionField PinDirection.output.code b = (.ok _, d)
      from hset] at hdirection
    rw [show Converter.setField p.functionField PinFunction.fifoFull.code d = (.error e, c)
      from h] at hfunction
    constructor
    · exact hfunction.unset.trans hdirection.done
    · rw [hfunction.failed, hdirection.failures_of_ne hne]

/-- A registration that fails binds nothing and touches nothing but the board. Every register is
as it was, unless an access to the pin's function has failed: then the pin is left an output. -/
theorem registerIrq_error {f g : Fifo} {i : Nat} {e : Cause} (hp : Pin.ofIndex? i = some p)
    (h : registerIrq i f = (.error e, g)) :
    g = { f with board := g.board } ∧
      ((g.board.chip = f.board.chip ∧ g.board.failures p.functionField.address =
          f.board.failures p.functionField.address) ∨
        (g.board.chip = f.board.chip.setField p.directionField PinDirection.output.code ∧
          g.board.failures p.functionField.address =
            f.board.failures p.functionField.address + 1)) := by
  have hkept : ∀ b c : Board, b.After [] b.chip c →
      c.failures p.functionField.address = b.failures p.functionField.address :=
    fun b c hc => (hc.failures _).trans (Nat.zero_add _)
  unfold registerIrq at h
  rw [Action.state_bind] at h
  split at h
  · cases h
    exact ⟨rfl, .inl ⟨rfl, rfl⟩⟩
  · rw [hp] at h
    dsimp only at h
    have hplatform := setUpPlatform_obeys Board.platform_aside Board.log_aside f.board.irq
      f.board trivial
    rcases Action.of_bind_error _ h with h | ⟨_, f₁, h₁, h⟩
    · -- the platform refused
      obtain ⟨b, hb, rfl⟩ := Action.of_within_error _ h
      rw [show setUpPlatform f.board.irq f.board = (.error e, b) from hb] at hplatform
      exact ⟨rfl, .inl ⟨hplatform.allowed.chip, hkept _ _ hplatform.allowed⟩⟩
    · obtain ⟨b, hb, rfl⟩ := Action.of_within_ok _ h₁
      rw [show setUpPlatform f.board.irq f.board = (.ok _, b) from hb] at hplatform
      have hup := hplatform.allowed
      rcases Action.of_bind_error _ h with h | ⟨_, f₂, _, h⟩
      · -- the bus failed, and the platform side is taken down again
        obtain ⟨c, hc, rfl⟩ := Action.of_within_error _ h
        obtain ⟨e', d, hroute, hdown⟩ := Action.of_recover_error _ hc
        have hteardown : (do teardown f.board.irq true; .fail e' : Call Board Unit).Obeys aside :=
          .bind (teardown_obeys Board.platform_aside Board.log_aside _ true) fun _ => .fail e'
        have hback := hteardown d trivial
        rw [hdown] at hback
        refine ⟨rfl, ?_⟩
        dsimp only [boardPart]
        rw [hback.allowed.chip, hkept _ _ hback.allowed, ← hup.chip, ← hkept _ _ hup]
        exact routePin_error hroute
      · -- what comes after the routing cannot fail
        rcases Action.of_bind_error _ h with h | ⟨_, _, _, h⟩
        · obtain ⟨_, h, -⟩ := Action.of_within_error _ h
          cases h
        · cases h

/-- The second pin, on a board on which the fourth access fails: the write of the function. -/
theorem registerIrq_error_turned :
    let f : Fifo := { board := { faults := { planned := fun k _ => if k = 3 then some 7 else none } } }
    ∃ g, Pin.ofIndex? 1 = some .gp1 ∧ registerIrq 1 f = (.error (.bus (.code 7)), g) ∧
      (g = { f with board := g.board } ∧
        ((g.board.chip = f.board.chip ∧ g.board.failures Pin.gp1.functionField.address =
            f.board.failures Pin.gp1.functionField.address) ∨
          (g.board.chip = f.board.chip.setField Pin.gp1.directionField PinDirection.output.code ∧
            g.board.failures Pin.gp1.functionField.address =
              f.board.failures Pin.gp1.functionField.address + 1))) ∧
      g.board.registers.get Register.pinConfigA = 2 := by
  intro f
  have hrun : (registerIrq 1 f).1 = .error (.bus (.code 7)) ∧
      (registerIrq 1 f).2.board.registers.get Register.pinConfigA = 2 := by decide +kernel
  have hends : registerIrq 1 f = (.error (.bus (.code 7)), (registerIrq 1 f).2) :=
    Prod.ext hrun.1 rfl
  exact ⟨_, rfl, hends, registerIrq_error (p := .gp1) rfl hends, hrun.2⟩

/-- A registration that fails does not always restore the registers, even if no more than one
access of the whole schedule fails. -/
theorem registerIrq_not_unwound :
    ¬ ∀ (f g : Fifo) (i : Nat) (e : Cause), f.live = true → f.binding = none → i < 4 →
      (∃ k, ∀ j a, j ≠ k → f.board.faults.code? j a = none) → registerIrq i f = (.error e, g) →
        (∀ a, g.board.registers.get a = f.board.registers.get a) ∧ g.binding = none := by
  intro h
  let f : Fifo := { board := { faults := { planned := fun k _ => if k = 3 then some 7 else none } } }
  have hrun : (registerIrq 1 f).1 = .error (.bus (.code 7)) ∧
      (registerIrq 1 f).2.board.registers.get Register.pinConfigA ≠
        f.board.registers.get Register.pinConfigA := by decide +kernel
  have honce : ∃ k, ∀ j a, j ≠ k → f.board.faults.code? j a = none :=
    ⟨3, fun j a hj => by simp [f, Faults.code?, hj]⟩
  exact hrun.2 ((h f _ 1 _ rfl rfl (by decide) honce (Prod.ext hrun.1 rfl)).1 _)

end Fifo

end AdcCapture
