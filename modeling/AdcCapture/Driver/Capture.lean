/-
  A capture: the FIFO is armed, the interrupt of the full FIFO reads it out and publishes how the
  readout went, and the capture returns that. Interrupts and other calls can come in at two
  points, after the arming and after the wait; at both the driver is between its critical
  sections. A capture without a result is given up and the FIFO turned off.
-/
import AdcCapture.Driver.Basic

namespace AdcCapture

/-- What happens to the state at the two points where a capture can be interrupted. -/
structure Interrupts (σ : Type) where
  afterArm : σ → σ := id
  afterWait : σ → σ := id

namespace Driver

/-- What the interrupt of a full FIFO does: for a capture that still waits, it reads the samples
and publishes the result. -/
def consume : Action Driver Empty Unit := do
  let d ← Action.state
  if !d.pending || d.completion.done then onBoard (Board.log .noCapturePending)
  else do
    let r ← Action.attempt (onFifo Fifo.readSamples)
    Action.within completionPart (Completion.signal r)

/-- Handles the FIFO-full interrupt; a failure is reported in the log. -/
def onInterrupt : Action Driver Empty Unit := do
  match ← Action.attempt (Fifo.handleInterrupt fifoPart consume) with
  | .ok _ => return ()
  | .error e => onBoard (Board.log (.interruptFailed e))

/-- The first critical section of a capture: from idle to armed. -/
def beginCapture : Call Driver Unit := do
  let d ← Action.state
  match d.capture with
  | .armed => .fail .busy
  | .idle => do
    Action.update fun d => { d with capture := .armed, completion := d.completion.init }
    (onFifo Fifo.arm).recover fun e => do
      Action.update fun d => { d with completion := d.completion.invalidate, capture := .idle }
      .fail e

/-- Gives a capture up: reports it and turns the FIFO off. -/
def abandon (polls : UInt32) : Call Driver (Except Cause Unit) := do
  onBoard (Board.log (.captureTimedOut polls))
  (onFifo Fifo.disable).recover fun e => onBoard (Board.log (.abandonFailed e))
  return .error .timeout

/-- The result of a capture whose wait ended without one: an interrupt may have come since. -/
def lateResult (polls : UInt32) : Call Driver (Except Cause Unit) := do
  let d ← Action.state
  if d.completion.done then
    (Action.within completionPart (Completion.wait 0)).recover fun _ => pure (.error .timeout)
  else abandon polls

/-- The last critical section of a capture: from armed to idle. -/
def endCapture (polls : UInt32) (waited : Except TimedOut (Except Cause Unit)) :
    Call Driver Unit := do
  let result ← match waited with
    | .ok r => pure r
    | .error _ => lateResult polls
  Action.update fun d => { d with completion := d.completion.invalidate, capture := .idle }
  match result with
  | .ok _ => onBoard (Board.log .captureComplete)
  | .error e => .fail e

/-- Captures a watermark's worth of samples, on a state that a driver is a part of. -/
def captureOn {σ : Type} (p : Part σ Driver) (interrupts : Interrupts σ) : Call σ Unit := do
  Action.within p beginCapture
  Action.update interrupts.afterArm
  Action.within p (onBoard (Board.log .captureArmed))
  let polls := (p.get (← Action.state)).captureTimeout
  let waited ←
    Action.attempt (Action.within (p.andThen completionPart) (Completion.wait polls.toNat))
  Action.update interrupts.afterWait
  Action.within p (endCapture polls waited)

end Driver

end AdcCapture
