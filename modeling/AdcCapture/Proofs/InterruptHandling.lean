/-
  Handling an interrupt, case by case. The state is any that a descriptor is a part of, and the
  consumer is any action on it; each way in which the handler can go on is one equation.
-/
import AdcCapture.Proofs.FifoCalls

namespace AdcCapture

/-- A component that is found as it was set, and of which the last one set counts. -/
structure Part.Lawful {σ τ : Type} (p : Part σ τ) : Prop where
  get_set : ∀ t s, p.get (p.set t s) = t
  set_set : ∀ t u s, p.set u (p.set t s) = p.set u s

theorem Part.lawful_whole (σ : Type) : (Part.whole σ).Lawful where
  get_set _ _ := rfl
  set_set _ _ _ := rfl

namespace Board

/-- The board with a message in its record. -/
def noted (m : Message) (b : Board) : Board := { b with record := .log m :: b.record }

theorem log_eq {ε : Type} (m : Message) (b : Board) :
    (log m : Action Board ε Unit) b = (.ok (), b.noted m) := rfl

end Board

namespace Fifo

variable {σ : Type} {p : Part σ Fifo} {consumer : Action σ Empty Unit} {s t : σ} {b : Board}

theorem handleInterrupt_dead (h : (p.get s).live = false) :
    handleInterrupt p consumer s = (.fault .deadDescriptor, s) := by
  unfold handleInterrupt
  rw [Action.state_bind, h]
  rfl

section Asked

variable (hlive : (p.get s).live = true)
include hlive

theorem handleInterrupt_unasked {e : Cause}
    (hask : Converter.fifoFull (p.get s).board = (.error e, b)) :
    handleInterrupt p consumer s = (.error e, p.set { p.get s with board := b } s) := by
  have hon : Action.within (p.andThen boardPart) Converter.fifoFull s =
      (.error e, p.set { p.get s with board := b } s) := Action.within_eq s hask
  unfold handleInterrupt
  rw [Action.state_bind, hlive]
  exact Action.bind_error _ hon _

theorem handleInterrupt_spurious (hp : p.Lawful)
    (hask : Converter.fifoFull (p.get s).board = (.ok false, b)) :
    handleInterrupt p consumer s =
      (.ok .spurious, p.set { p.get s with board := b.noted .spuriousInterrupt } s) := by
  have hon : Action.within (p.andThen boardPart) Converter.fifoFull s =
      (.ok false, p.set { p.get s with board := b } s) := Action.within_eq s hask
  have hlog : Action.within (p.andThen boardPart) (Board.log .spuriousInterrupt)
      (p.set { p.get s with board := b } s) = ((.ok (),
        p.set { p.get s with board := b.noted .spuriousInterrupt } s) :
          Outcome Cause Unit × σ) := by
    rw [Action.within_apply]
    unfold Part.andThen boardPart
    dsimp only
    rw [hp.get_set, hp.set_set]
    rfl
  unfold handleInterrupt
  rw [Action.state_bind, hlive]
  exact (Action.bind_ok _ hon _).trans (Action.bind_ok _ hlog _)

/-- If the FIFO is full the consumer runs next, and after it the FIFO is turned off. -/
theorem handleInterrupt_full (hask : Converter.fifoFull (p.get s).board = (.ok true, b)) :
    handleInterrupt p consumer s = (do
      consumer.mapError Empty.elim
      Action.within p disable
      return .fifoFull : Call σ IrqEvent) (p.set { p.get s with board := b } s) := by
  have hon : Action.within (p.andThen boardPart) Converter.fifoFull s =
      (.ok true, p.set { p.get s with board := b } s) := Action.within_eq s hask
  unfold handleInterrupt
  rw [Action.state_bind, hlive]
  exact Action.bind_ok _ hon _

/-- A consumer that faults ends the handling of the interrupt. -/
theorem handleInterrupt_faulted (hask : Converter.fifoFull (p.get s).board = (.ok true, b))
    {x : Fault} (h : consumer (p.set { p.get s with board := b } s) = (.fault x, t)) :
    handleInterrupt p consumer s = (.fault x, t) := by
  rw [handleInterrupt_full hlive hask, Action.bind_apply]
  unfold Action.mapError
  rw [h]
  rfl

/-- Once the consumer has run, how turning the FIFO off ends is how the interrupt ends. -/
theorem handleInterrupt_consumed (hask : Converter.fifoFull (p.get s).board = (.ok true, b))
    (h : consumer (p.set { p.get s with board := b } s) = (.ok (), t)) {o : Outcome Cause Unit}
    {c : Board} (hoff : Converter.setFifoMode .disabled (p.get t).board = (o, c)) :
    handleInterrupt p consumer s =
      (o.map fun _ => .fifoFull, p.set { p.get t with board := c } t) := by
  have hconsumer : (consumer.mapError Empty.elim : Call σ Unit)
      (p.set { p.get s with board := b } s) = (.ok (), t) := by
    unfold Action.mapError
    rw [h]
    rfl
  have hdisable : Action.within p disable t = (o, p.set { p.get t with board := c } t) :=
    Action.within_eq t (onBoard_eq hoff)
  rw [handleInterrupt_full hlive hask, Action.bind_ok _ hconsumer, Action.bind_apply, hdisable]
  cases o <;> rfl

end Asked

/-- A fault is that of a descriptor that has been finalised, or the consumer's. -/
theorem handleInterrupt_fault (hp : p.Lawful) {x : Fault}
    (h : handleInterrupt p consumer s = (.fault x, t)) :
    (x = .deadDescriptor ∧ (p.get s).live = false) ∨
      ∃ b, consumer (p.set { p.get s with board := b } s) = (.fault x, t) := by
  cases hlive : (p.get s).live with
  | false =>
    cases (handleInterrupt_dead hlive).symm.trans h
    exact .inl ⟨rfl, rfl⟩
  | true =>
    rcases Converter.fifoFull_ends (p.get s).board with ⟨full, b, hask⟩ | ⟨e, b, hask⟩
    · cases full with
      | false => cases (handleInterrupt_spurious hlive hp hask).symm.trans h
      | true =>
        rcases hrun : consumer (p.set { p.get s with board := b } s) with ⟨o, u⟩
        cases o with
        | error e => exact e.elim
        | fault y =>
          cases (handleInterrupt_faulted hlive hask hrun).symm.trans h
          exact .inr ⟨b, hrun⟩
        | ok _ =>
          rcases Converter.setFifoMode_ends .disabled (p.get u).board with
            ⟨c, hoff⟩ | ⟨y, c, hoff⟩
          · cases (handleInterrupt_consumed hlive hask hrun hoff).symm.trans h
          · cases (handleInterrupt_consumed hlive hask hrun hoff).symm.trans h
    · cases (handleInterrupt_unasked hlive hask).symm.trans h

end Fifo

end AdcCapture
