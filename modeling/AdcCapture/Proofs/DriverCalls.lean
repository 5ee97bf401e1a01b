/-
  What each call does to a driver, as equations. `Driver.interrupted` is the driver after an
  interrupt, `begun` after a capture was armed, `ended` after one was closed; each is proved to be
  what the call computes on a sound driver, without a fault. Soundness ties the three parts of the
  state together: an armed driver has buffers and a signed completion, an idle one an unsigned
  completion, a completion that is done holds a result.
-/
import AdcCapture.Driver.Submit
import AdcCapture.Proofs.InterruptHandling

namespace AdcCapture

namespace Completion

variable {α : Type}

/-- What a wait comes back with. -/
def waited (c : Completion α) : Except TimedOut α :=
  match c.result? with
  | some v => .ok v
  | none => .error {}

theorem done_of_result? {c : Completion α} {v : α} (h : c.result? = some v) :
    c.done = true ∧ c.slot = some v := by
  unfold result? at h
  split at h
  · exact ⟨‹_›, h⟩
  · cases h

/-- However long a wait is, it comes back with what is published. -/
theorem attempt_wait {ε : Type} {c : Completion α} (h : c.signed = true) (polls : Nat) :
    (Action.attempt (wait polls) : Action (Completion α) ε _) c = (.ok c.waited, c) := by
  unfold Action.attempt wait waited
  rw [if_pos h, look_eq]
  cases c.result? <;> rfl

end Completion

namespace Board

/-- The board after an attempt to turn the FIFO off; a failure is reported. -/
def switchedOff (report : Cause → Message) (b : Board) : Board :=
  match Converter.setFifoMode .disabled b with
  | (.error e, c) => c.noted (report e)
  | (_, c) => c

end Board

namespace Driver

/-- The driver with another board. -/
def withBoard (b : Board) (d : Driver) : Driver := { d with fifo := { d.fifo with board := b } }

/-- How the capture state, the completion and the descriptor of a driver go together. -/
structure Sound (d : Driver) : Prop where
  live : d.fifo.live = true
  shaped : d.fifo.Shaped
  sized : d.capture = .armed → d.fifo.buffers.isSome
  signed : d.capture = .armed → d.completion.signed = true
  unsigned : d.capture = .idle → d.completion.signed = false
  stored : d.completion.done = true → d.completion.slot.isSome

theorem Sound.withBoard {d : Driver} (h : d.Sound) (b : Board) : (d.withBoard b).Sound where
  live := h.live
  shaped := h.shaped
  sized := h.sized
  signed := h.signed
  unsigned := h.unsigned
  stored := h.stored

theorem onBoard_eq {ε α : Type} {a : Action Board ε α} {d : Driver} {o : Outcome ε α} {b : Board}
    (h : a d.fifo.board = (o, b)) : onBoard a d = (o, d.withBoard b) := Action.within_eq d h

theorem onFifo_eq {ε α : Type} {a : Action Fifo ε α} {d : Driver} {o : Outcome ε α} {f : Fifo}
    (h : a d.fifo = (o, f)) : onFifo a d = (o, { d with fifo := f }) := Action.within_eq d h

/-! ## The interrupt -/

/-- Whether a capture waits for a readout. -/
def awaits (d : Driver) : Bool := d.pending && !d.completion.done

/-- Whether the converter says, when it is asked, that its FIFO is full. -/
def full (d : Driver) : Prop := (Converter.fifoFull d.fifo.board).1 = .ok true

/-- The driver after a readout whose result was published. -/
def readOut (d : Driver) : Driver :=
  match Fifo.readSamples d.fifo with
  | (o, f) =>
    { d with fifo := f, completion := { d.completion with done := true, slot := o.result? } }

/-- The driver after the consumer of a full FIFO. -/
def consumed (d : Driver) : Driver :=
  if d.awaits then d.readOut else d.withBoard (d.fifo.board.noted .noCapturePending)

/-- The driver after an interrupt. -/
def interrupted (d : Driver) : Driver :=
  match Converter.fifoFull d.fifo.board with
  | (.ok true, b) =>
    let e := (d.withBoard b).consumed
    e.withBoard (e.fifo.board.switchedOff .interruptFailed)
  | (.ok false, b) => d.withBoard (b.noted .spuriousInterrupt)
  | (.error e, b) => d.withBoard (b.noted (.interruptFailed e))
  | (.fault _, b) => d.withBoard b

theorem awaits_iff {d : Driver} :
    d.awaits = true ↔ d.capture = .armed ∧ d.completion.done = false := by
  unfold awaits pending
  simp

theorem not_awaits (d : Driver) : (!d.pending || d.completion.done) = !d.awaits := by
  unfold awaits
  cases d.pending <;> cases d.completion.done <;> rfl

theorem readOut_eq {d : Driver} {o : Outcome Cause Unit} {f : Fifo}
    (h : Fifo.readSamples d.fifo = (o, f)) :
    d.readOut = { d with
      fifo := f
      completion := { d.completion with done := true, slot := o.result? } } := by
  unfold readOut
  rw [h]

theorem consume_eq {d : Driver} (h : d.Sound) : consume d = (.ok (), d.consumed) := by
  unfold consume consumed
  rw [Action.state_bind, not_awaits]
  cases ha : d.awaits with
  | false => exact onBoard_eq (Board.log_eq _ _)
  | true =>
    obtain ⟨harmed, hdone⟩ := awaits_iff.mp ha
    have hsigned := h.signed harmed
    rcases hr : Fifo.readSamples d.fifo with ⟨o, f⟩
    have hon : onFifo Fifo.readSamples d = (o, { d with fifo := f }) := onFifo_eq hr
    have hsure : (onFifo Fifo.readSamples d).1.fault? = none := by
      rw [hon]
      exact (congrArg (fun x => x.1.fault?) hr).symm.trans (Fifo.readSamples_keeps h.shaped).1
    obtain ⟨r, hres, hattempt⟩ := Action.attempt_of_sure Empty hsure
    rw [hon] at hres hattempt
    have hsignal : Completion.signal r d.completion =
        (.ok (), { d.completion with done := true, slot := some r }) := by
      unfold Completion.signal
      rw [if_pos hsigned, if_neg (by rw [hdone]; exact Bool.false_ne_true)]
    change (Action.attempt (onFifo Fifo.readSamples) >>= fun r =>
      Action.within completionPart (Completion.signal r)) d = (.ok (), d.readOut)
    rw [Action.bind_ok _ hattempt, Action.within_apply]
    change ((Completion.signal r d.completion).1,
      { d with fifo := f, completion := (Completion.signal r d.completion).2 }) = _
    rw [hsignal, readOut_eq hr, show o.result? = some r from hres]

theorem Sound.consumed {d : Driver} (h : d.Sound) : d.consumed.Sound := by
  unfold Driver.consumed
  cases ha : d.awaits with
  | false => exact h.withBoard _
  | true =>
    obtain ⟨harmed, -⟩ := awaits_iff.mp ha
    obtain ⟨hsure, hshaped, hlive, -, hsome⟩ := Fifo.readSamples_keeps h.shaped
    rcases hr : Fifo.readSamples d.fifo with ⟨o, f⟩
    rw [hr] at hsure hshaped hlive hsome
    rw [if_pos rfl, readOut_eq hr]
    exact {
      live := hlive.trans h.live
      shaped := hshaped
      sized := fun hc => hsome.trans (h.sized hc)
      signed := h.signed
      unsigned := fun hc => absurd (harmed.symm.trans hc) (fun h => nomatch h)
      stored := fun _ => Outcome.isSome_result? hsure }

theorem disable_eq {d : Driver} {o : Outcome Cause Unit} {b : Board}
    (h : Converter.setFifoMode .disabled d.fifo.board = (o, b)) :
    onFifo Fifo.disable d = (o, d.withBoard b) := onFifo_eq (Fifo.onBoard_eq h)

theorem lawful_fifoPart : fifoPart.Lawful where
  get_set _ _ := rfl
  set_set _ _ _ := rfl

theorem handleInterrupt_eq {d : Driver} (h : d.Sound) :
    Fifo.handleInterrupt fifoPart consume d =
      match Converter.fifoFull d.fifo.board with
      | (.ok true, b) =>
        let e := (d.withBoard b).consumed
        ((Converter.setFifoMode .disabled e.fifo.board).1.map fun _ => .fifoFull,
          e.withBoard (Converter.setFifoMode .disabled e.fifo.board).2)
      | (.ok false, b) => (.ok .spurious, d.withBoard (b.noted .spuriousInterrupt))
      | (.error e, b) => (.error e, d.withBoard b)
      | (.fault x, b) => (.fault x, d.withBoard b) := by
  have hlive : (fifoPart.get d).live = true := h.live
  rcases Converter.fifoFull_ends d.fifo.board with ⟨full, b, hask⟩ | ⟨e, b, hask⟩
  · rw [hask]
    cases full with
    | false => exact Fifo.handleInterrupt_spurious hlive lawful_fifoPart hask
    | true => exact Fifo.handleInterrupt_consumed hlive hask (consume_eq (h.withBoard b)) rfl
  · rw [hask]
    exact Fifo.handleInterrupt_unasked hlive hask

/-- The interrupt of a sound driver breaks no assertion, and does to the driver what
`interrupted` says. -/
theorem onInterrupt_eq {d : Driver} (h : d.Sound) : onInterrupt d = (.ok (), d.interrupted) := by
  have hhandle := handleInterrupt_eq h
  unfold onInterrupt interrupted
  rcases Converter.fifoFull_ends d.fifo.board with ⟨full, b, hf⟩ | ⟨e, b, hf⟩
  · rw [hf] at hhandle ⊢
    cases full with
    | false => exact Action.bind_ok _ (Action.attempt_ok _ hhandle) _
    | true =>
      dsimp only at hhandle ⊢
      unfold Board.switchedOff
      rcases Converter.setFifoMode_ends .disabled (d.withBoard b).consumed.fifo.board
        with ⟨c, hm⟩ | ⟨f, c, hm⟩
      · rw [hm] at hhandle ⊢
        exact Action.bind_ok _ (Action.attempt_ok _ hhandle) _
      · rw [hm] at hhandle ⊢
        exact Action.bind_ok _ (Action.attempt_error _ hhandle) _
  · rw [hf] at hhandle ⊢
    exact Action.bind_ok _ (Action.attempt_error _ hhandle) _

theorem Sound.interrupted {d : Driver} (h : d.Sound) : d.interrupted.Sound := by
  unfold Driver.interrupted
  split
  · exact (h.withBoard _).consumed.withBoard _
  · exact h.withBoard _
  · exact h.withBoard _
  · exact h.withBoard _

/-! ## Changes of the watermark -/

theorem setWatermark_armed {d : Driver} (h : d.capture = .armed) (n : Nat) :
    setWatermark n d = (.error .busy, d) := by
  have hpending : d.pending = true := by
    unfold pending
    rw [h]
    rfl
  unfold setWatermark
  rw [Action.state_bind, hpending]
  rfl

theorem setWatermark_idle {d : Driver} (h : d.capture = .idle) (n : Nat) :
    setWatermark n d = onFifo (Fifo.setWatermark n) d := by
  have hpending : d.pending = false := by
    unfold pending
    rw [h]
    rfl
  unfold setWatermark
  rw [Action.state_bind, hpending]
  rfl

/-! ## The two ends of a capture -/

/-- The driver after a capture was armed. -/
def begun (b : Board) (d : Driver) : Driver :=
  { d.withBoard b with capture := .armed, completion := d.completion.init }

/-- The driver after a capture that could not be armed. -/
def refused (b : Board) (d : Driver) : Driver :=
  { d.withBoard b with capture := .idle, completion := d.completion.init.invalidate }

/-- The driver after a capture was closed. -/
def closed (d : Driver) : Driver :=
  { d with capture := .idle, completion := d.completion.invalidate }

/-- How a capture ends that has this result. -/
def close (d : Driver) : Except Cause Unit → Outcome Cause Unit × Driver
  | .ok _ => (.ok (), d.closed.withBoard (d.fifo.board.noted .captureComplete))
  | .error e => (.error e, d.closed)

/-- The driver after a capture without a result was given up. -/
def abandoned (polls : UInt32) (d : Driver) : Driver :=
  d.withBoard ((d.fifo.board.noted (.captureTimedOut polls)).switchedOff .abandonFailed)

theorem Sound.begun {d : Driver} (h : d.Sound) (hb : d.fifo.buffers.isSome) (b : Board) :
    (d.begun b).Sound where
  live := h.live
  shaped := h.shaped
  sized _ := hb
  signed _ := rfl
  unsigned hc := nomatch hc
  stored hc := nomatch hc

theorem Sound.refused {d : Driver} (h : d.Sound) (b : Board) : (d.refused b).Sound where
  live := h.live
  shaped := h.shaped
  sized hc := nomatch hc
  signed hc := nomatch hc
  unsigned _ := rfl
  stored hc := nomatch hc

theorem Sound.closed {d : Driver} (h : d.Sound) : d.closed.Sound where
  live := h.live
  shaped := h.shaped
  sized hc := nomatch hc
  signed hc := nomatch hc
  unsigned _ := rfl
  stored := h.stored

theorem beginCapture_armed {d : Driver} (h : d.capture = .armed) :
    beginCapture d = (.error .busy, d) := by
  unfold beginCapture
  rw [Action.state_bind, h]
  rfl

theorem arm_armed {d : Driver} {o : Outcome Cause Unit} {f : Fifo}
    (h : Fifo.arm d.fifo = (o, f)) :
    onFifo Fifo.arm { d with capture := .armed, completion := d.completion.init } =
      (o, { d with fifo := f, capture := .armed, completion := d.completion.init }) := onFifo_eq h

theorem beginCapture_error {d : Driver} (h : d.capture = .idle) {e : Cause} {f : Fifo}
    (harm : Fifo.arm d.fifo = (.error e, f)) :
    beginCapture d =
      (.error e,
        { d with fifo := f, capture := .idle, completion := d.completion.init.invalidate }) := by
  unfold beginCapture
  rw [Action.state_bind, h]
  exact Action.recover_error _ (arm_armed harm) _

theorem beginCapture_unsized {d : Driver} (h : d.capture = .idle) (hb : d.fifo.buffers = none) :
    beginCapture d = (.error .invalidArgument, d.refused d.fifo.board) := by
  have harm : Fifo.arm d.fifo = (.error .invalidArgument, d.fifo) := by
    unfold Fifo.arm
    rw [Action.state_bind, hb]
    rfl
  exact beginCapture_error h harm

theorem arm_sized {d : Driver} (hb : d.fifo.buffers.isSome = true) {o : Outcome Cause Unit}
    {b : Board} (hm : Converter.setFifoMode .immediateTrigger d.fifo.board = (o, b)) :
    Fifo.arm d.fifo = (o, { d.fifo with board := b }) := by
  unfold Fifo.arm
  rw [Action.state_bind, Option.isNone_eq_false_iff.mpr hb]
  exact Fifo.onBoard_eq hm

theorem beginCapture_refused {d : Driver} (h : d.capture = .idle)
    (hb : d.fifo.buffers.isSome = true) {e : Cause} {b : Board}
    (hm : Converter.setFifoMode .immediateTrigger d.fifo.board = (.error e, b)) :
    beginCapture d = (.error e, d.refused b) := beginCapture_error h (arm_sized hb hm)

theorem beginCapture_begun {d : Driver} (h : d.capture = .idle)
    (hb : d.fifo.buffers.isSome = true) {b : Board}
    (hm : Converter.setFifoMode .immediateTrigger d.fifo.board = (.ok (), b)) :
    beginCapture d = (.ok (), d.begun b) := by
  unfold beginCapture
  rw [Action.state_bind, h]
  exact Action.recover_ok _ (arm_armed (arm_sized hb hm)) _

theorem endCapture_result (d : Driver) (polls : UInt32) (r : Except Cause Unit) :
    endCapture polls (.ok r) d = d.close r := by
  cases r <;> rfl

theorem endCapture_late {d : Driver} {polls : UInt32} {r : Except Cause Unit} {e : Driver}
    (h : lateResult polls d = (.ok r, e)) : endCapture polls (.error {}) d = e.close r := by
  unfold endCapture
  dsimp only
  rw [Action.bind_ok _ h]
  cases r <;> rfl

theorem lateResult_done {d : Driver} (hs : d.completion.signed = true)
    (hd : d.completion.done = true) {r : Except Cause Unit} (hr : d.completion.slot = some r)
    (polls : UInt32) : lateResult polls d = (.ok r, d) := by
  have hwait : Completion.wait 0 d.completion = (.ok r, d.completion) := by
    have hlook : d.completion.look 0 = some r := by
      rw [Completion.look_eq, Completion.result?, if_pos hd, hr]
    unfold Completion.wait
    rw [if_pos hs, hlook]
  unfold lateResult
  rw [Action.state_bind, if_pos hd]
  exact Action.recover_ok _ (Action.within_eq d hwait) _

theorem abandon_eq (d : Driver) (polls : UInt32) :
    abandon polls d = (.ok (.error .timeout), d.abandoned polls) := by
  unfold abandon abandoned Board.switchedOff
  rw [Action.bind_ok _ (onBoard_eq (Board.log_eq _ _))]
  generalize d.fifo.board.noted (.captureTimedOut polls) = b
  rcases Converter.setFifoMode_ends .disabled b with ⟨c, hm⟩ | ⟨f, c, hm⟩
  · rw [hm]
    exact Action.bind_ok _ (Action.recover_ok _ (disable_eq (d := d.withBoard b) hm) _) _
  · rw [hm]
    exact Action.bind_ok _ (Action.recover_error _ (disable_eq (d := d.withBoard b) hm) _) _

theorem lateResult_open {d : Driver} (hd : d.completion.done = false) (polls : UInt32) :
    lateResult polls d = (.ok (.error .timeout), d.abandoned polls) := by
  unfold lateResult
  rw [Action.state_bind, if_neg (by rw [hd]; exact Bool.false_ne_true)]
  exact abandon_eq d polls

/-- A capture begins and is armed, or it ends at once and leaves the capture state as it was. -/
theorem Sound.beginCapture {d : Driver} (h : d.Sound) :
    (∃ e d', beginCapture d = (.error e, d') ∧ d'.Sound ∧ d'.capture = d.capture) ∨
      ∃ b, beginCapture d = (.ok (), d.begun b) ∧ (d.begun b).Sound ∧ d.capture = .idle := by
  cases hc : d.capture with
  | armed => exact .inl ⟨_, _, beginCapture_armed hc, h, hc⟩
  | idle =>
    cases hb : d.fifo.buffers with
    | none => exact .inl ⟨_, _, beginCapture_unsized hc hb, h.refused _, rfl⟩
    | some b =>
      have hsome : d.fifo.buffers.isSome = true := by rw [hb]; rfl
      rcases Converter.setFifoMode_ends .immediateTrigger d.fifo.board
        with ⟨c, hm⟩ | ⟨f, c, hm⟩
      · exact .inr ⟨c, beginCapture_begun hc hsome hm, h.begun hsome c, rfl⟩
      · exact .inl ⟨_, _, beginCapture_refused hc hsome hm, h.refused c, rfl⟩

theorem Sound.close {d : Driver} (h : d.Sound) (r : Except Cause Unit) :
    (d.close r).1.fault? = none ∧ (d.close r).2.Sound := by
  cases r with
  | ok v => exact ⟨rfl, h.closed.withBoard _⟩
  | error e => exact ⟨rfl, h.closed⟩

/-- A capture that was armed ends without a fault. -/
theorem Sound.endCapture {d : Driver} (h : d.Sound) (harmed : d.capture = .armed) (polls : UInt32)
    (waited : Except TimedOut (Except Cause Unit)) :
    (endCapture polls waited d).1.fault? = none ∧ (endCapture polls waited d).2.Sound := by
  cases waited with
  | ok r =>
    rw [endCapture_result]
    exact h.close r
  | error e =>
    cases hd : d.completion.done with
    | false =>
      rw [endCapture_late (lateResult_open hd polls)]
      exact (h.withBoard _).close _
    | true =>
      obtain ⟨r, hr⟩ := Option.isSome_iff_exists.mp (h.stored hd)
      rw [endCapture_late (lateResult_done (h.signed harmed) hd hr polls)]
      exact h.close r

end Driver

end AdcCapture
