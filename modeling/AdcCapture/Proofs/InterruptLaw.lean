/-
  Handling an interrupt, for any consumer whatever: the handler asks the converter once whether the
  FIFO is full, and only then runs the consumer, once, and turns the FIFO off after it
  (`Fifo.handleInterrupt_law`). The consumer is any action on any state that the descriptor is a
  part of, so it may use, re-arm or finalise the descriptor, or handle interrupts in turn.
-/
import AdcCapture.Proofs.DescriptorRuns

namespace AdcCapture

namespace Fifo

/-! ## The question -/

theorem fifoFull_of_read {b c : Board} {v : UInt8}
    (h : Board.readRegister Register.deviceStatus b = (.ok v, c)) :
    Converter.fifoFull b = (.ok (v &&& Register.fifoFull ≠ 0), c) := by
  have hstatus : Converter.status b = (.ok v, c) := by
    unfold Converter.status Converter.read Action.mapError
    rw [h]
    rfl
  exact Action.bind_ok _ hstatus _

theorem fifoFull_of_failure {b c : Board} {x : BusFault}
    (h : Board.readRegister Register.deviceStatus b = (.error x, c)) :
    Converter.fifoFull b = (.error (.bus x), c) := by
  have hstatus : Converter.status b = (.error (.bus x), c) := by
    unfold Converter.status Converter.read Action.mapError
    rw [h]
    rfl
  exact Action.bind_error _ hstatus _

/-! ## The law -/

/-- The FIFO is off, and nothing else in the registers has changed. -/
structure TurnedOff (k l : Chip) : Prop where
  mode : l.mode = .disabled
  bits : l.registers.get Register.generalConfig &&& ~~~Field.fifoMode.mask =
    k.registers.get Register.generalConfig &&& ~~~Field.fifoMode.mask
  registers : ∀ a, a ≠ Register.generalConfig → l.registers.get a = k.registers.get a

theorem disable_turnsOff {b c : Board} (h : Converter.setFifoMode .disabled b = (.ok (), c)) :
    TurnedOff b.chip c.chip := by
  have hset := Converter.setFifoMode_effect .disabled b
  rw [h] at hset
  refine ⟨?_, hset.outside (by decide), fun a ha => hset.registers ha⟩
  rw [hset.done]
  exact Chip.mode_setMode .disabled b.chip

theorem disable_unset {b c : Board} {e : Cause}
    (h : Converter.setFifoMode .disabled b = (.error e, c)) : c.chip = b.chip := by
  have hset := Converter.setFifoMode_effect .disabled b
  rw [h] at hset
  exact hset.unset

/-- An interrupt of a descriptor that has been finalised is a fault, and nothing is done. Otherwise
the status register is read first. If that fails, so does the call; if the FIFO is not full, the
interrupt was spurious. The consumer does not run in either case, and neither the converter nor the
descriptor has changed. If the FIFO is full the consumer runs, once, and unless it faults the FIFO
is turned off after it: then the interrupt was a real one and the FIFO is off, whatever the
consumer has done, or the bus has failed and all is as the consumer left it. -/
theorem handleInterrupt_law {σ : Type} {p : Part σ Fifo} (hp : p.Lawful)
    (consumer : Action σ Empty Unit) (s : σ) :
    ((p.get s).live = false → handleInterrupt p consumer s = (.fault .deadDescriptor, s)) ∧
    ((p.get s).live = true →
      ∃ r b, Board.readRegister Register.deviceStatus (p.get s).board = (r, b) ∧
        b.chip = (p.get s).board.chip ∧
        (∃ seen, b.traffic = .read Register.deviceStatus seen :: (p.get s).board.traffic) ∧
        ((∃ x, r = .error x ∧
            handleInterrupt p consumer s =
              (.error (.bus x), p.set { p.get s with board := b } s)) ∨
          ∃ v, r = .ok v ∧
            (v &&& Register.fifoFull = 0 →
              handleInterrupt p consumer s =
                (.ok .spurious, p.set { p.get s with board := b.noted .spuriousInterrupt } s)) ∧
            (v &&& Register.fifoFull ≠ 0 →
              ∃ o t, consumer (p.set { p.get s with board := b } s) = (o, t) ∧
                ((∃ x, o = .fault x ∧ handleInterrupt p consumer s = (.fault x, t)) ∨
                  o = .ok () ∧
                    ∃ off c, Converter.setFifoMode .disabled (p.get t).board = (off, c) ∧
                      ((off = .ok () ∧ TurnedOff (p.get t).board.chip c.chip ∧
                          handleInterrupt p consumer s =
                            (.ok .fifoFull, p.set { p.get t with board := c } t)) ∨
                        ∃ x, off = .error (.bus x) ∧ c.chip = (p.get t).board.chip ∧
                          handleInterrupt p consumer s =
                            (.error (.bus x), p.set { p.get t with board := c } t)))))) := by
  refine ⟨handleInterrupt_dead, fun hlive => ?_⟩
  have hwired : Instruction.wired Register.deviceStatus = Register.deviceStatus := by decide
  rcases Board.readRegister_ends hwired (p.get s).board with ⟨b, hread, hb⟩ | ⟨x, b, hread, hb⟩
  · have hask := fifoFull_of_read hread
    refine ⟨_, b, hread, hb.chip, ⟨_, hb.traffic⟩, .inr ⟨_, rfl, fun hv => ?_, fun hv => ?_⟩⟩
    · rw [hv] at hask
      exact handleInterrupt_spurious hlive hp hask
    · rw [decide_eq_true hv] at hask
      rcases hrun : consumer (p.set { p.get s with board := b } s) with ⟨o, t⟩
      refine ⟨o, t, rfl, ?_⟩
      cases o with
      | error e => exact e.elim
      | fault x => exact .inl ⟨x, rfl, handleInterrupt_faulted hlive hask hrun⟩
      | ok _ =>
        refine .inr ⟨rfl, ?_⟩
        rcases Converter.setFifoMode_ends .disabled (p.get t).board with
          ⟨c, hoff⟩ | ⟨x, c, hoff⟩
        · exact ⟨_, c, hoff, .inl ⟨rfl, disable_turnsOff hoff,
            handleInterrupt_consumed hlive hask hrun hoff⟩⟩
        · exact ⟨_, c, hoff, .inr ⟨x, rfl, disable_unset hoff,
            handleInterrupt_consumed hlive hask hrun hoff⟩⟩
  · exact ⟨_, b, hread, hb.chip, ⟨_, hb.traffic⟩,
      .inl ⟨x, rfl, handleInterrupt_unasked hlive (fifoFull_of_failure hread)⟩⟩

/-- The consumer sizes the buffers, turns the FIFO on, handles another interrupt, in which the
descriptor is finalised, and turns the FIFO on again. -/
theorem handleInterrupt_law_nested :
    let f : Fifo := { board := { registers := RegisterFile.empty.set Register.deviceStatus 0x80 } }
    let consumer := FifoStep.consumerOf (FifoStep.runAll
      [.setWatermark 2, .arm, .interrupt [.readSamples, .finalise], .arm])
    ∃ h, handleInterrupt Handling.fifoPart consumer { fifo := f } = (.ok .fifoFull, h) ∧
      h.fifo.board.chip.mode = .disabled ∧ h.fifo.live = false ∧
      handleInterrupt Handling.fifoPart consumer h = (.fault .deadDescriptor, h) := by
  intro f consumer
  obtain ⟨hends, hdead⟩ :
      (handleInterrupt Handling.fifoPart consumer { fifo := f }).1 = .ok .fifoFull ∧
        (handleInterrupt Handling.fifoPart consumer { fifo := f }).2.fifo.live = false := by
    decide +kernel
  have hnot : ∀ {o : Outcome Cause IrqEvent} {h : Handling},
      handleInterrupt Handling.fifoPart consumer { fifo := f } = (o, h) → o = .ok .fifoFull :=
    fun hrun => (congrArg Prod.fst hrun).symm.trans hends
  obtain ⟨-, hlaw⟩ := handleInterrupt_law Handling.lawful_fifoPart consumer { fifo := f }
  obtain ⟨r, b, -, -, -, hcases⟩ := hlaw rfl
  rcases hcases with ⟨x, -, hrun⟩ | ⟨v, -, hspurious, hfull⟩
  · exact nomatch hnot hrun
  · by_cases hv : v &&& Register.fifoFull = 0
    · exact nomatch hnot (hspurious hv)
    · obtain ⟨o, t, -, ⟨x, -, hrun⟩ | ⟨-, off, c, -, ⟨-, hoff, hrun⟩ | ⟨x, -, -, hrun⟩⟩⟩ := hfull hv
      · exact nomatch hnot hrun
      · rw [hrun] at hdead
        refine ⟨_, hrun, hoff.mode, hdead, ?_⟩
        exact (handleInterrupt_law Handling.lawful_fifoPart consumer _).1 hdead
      · exact nomatch hnot hrun

end Fifo

end AdcCapture
