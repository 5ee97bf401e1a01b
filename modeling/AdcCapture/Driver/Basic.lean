/-
  The capture driver: a descriptor with its interrupt bound, the completion that hands a readout
  from the interrupt to the caller who waits for it, and whether a capture is pending.
-/
import AdcCapture.Completion
import AdcCapture.Fifo.Interrupt

namespace AdcCapture

/-- How often a capture looks for its result unless told otherwise. -/
def defaultPolls : UInt32 := 0xFFFF

/-- What a driver is started with. -/
structure Config where
  /-- The index of the converter pin that signals the full FIFO. -/
  fifoFullPin : Nat := 3
  watermark : Nat := fifoDepth
  /-- How often a capture looks for its result before it is given up. -/
  captureTimeout : UInt32 := defaultPolls
deriving DecidableEq, Repr

inductive CaptureState where
  | idle | armed
deriving DecidableEq, Repr

structure Driver where
  fifo : Fifo
  completion : Completion (Except Cause Unit) := {}
  capture : CaptureState := .idle
  captureTimeout : UInt32

namespace Driver

def fifoPart : Part Driver Fifo where
  get d := d.fifo
  set f d := { d with fifo := f }

def completionPart : Part Driver (Completion (Except Cause Unit)) where
  get d := d.completion
  set c d := { d with completion := c }

def boardPart : Part Driver Board := fifoPart.andThen Fifo.boardPart

/-- Makes a call to the descriptor. -/
def onFifo {ε α : Type} (a : Action Fifo ε α) : Action Driver ε α := Action.within fifoPart a

/-- Makes a call to the board. -/
def onBoard {ε α : Type} (a : Action Board ε α) : Action Driver ε α := Action.within boardPart a

def pending (d : Driver) : Bool := d.capture = .armed

def watermark (d : Driver) : Nat := d.fifo.watermark

def samples (d : Driver) : Array UInt32 := d.fifo.samples

/-- Checks the converter, sizes the buffers and binds the interrupt; a step that fails gives up
what the steps before it took. -/
def bringUp (c : Config) : Call Fifo Unit := do
  Fifo.onBoard Converter.init
  (Fifo.setWatermark c.watermark).recover fun e => do
    Action.update Fifo.finalise
    .fail e
  (Fifo.registerIrq c.fifoFullPin).recover fun e => do
    let _ ← Action.attempt Fifo.unsetWatermark
    Action.update Fifo.finalise
    Action.fail e
  Fifo.onBoard (Board.log (.ready c.watermark c.fifoFullPin))

/-- Starts a driver on a board. -/
def init (c : Config) : Call Board Driver := fun b =>
  match bringUp c { board := b } with
  | (.ok _, f) => (.ok { fifo := f, captureTimeout := c.captureTimeout }, f.board)
  | (.error e, f) => (.error e, f.board)
  | (.fault x, f) => (.fault x, f.board)

/-- Unbinds the interrupt, turns the FIFO off and gives the buffers back. Failures are reported
in the log and stop nothing. -/
def takeDown : Action Driver Empty Unit := do
  (onFifo Fifo.unregisterIrq).recover fun e => onBoard (Board.log (.unbindFailed e))
  (onFifo Fifo.unsetWatermark).recover fun e => onBoard (Board.log (.unsetFailed e))
  Action.update fun d => { d with
    fifo := d.fifo.finalise
    completion := d.completion.invalidate }
  onBoard (Board.log .removed)

/-- Ends a driver and hands its board back. -/
def fini (d : Driver) : Outcome Empty Unit × Board :=
  match takeDown d with
  | (o, d) => (o, d.fifo.board)

/-- Resizes the buffers and programs the watermark, unless a capture is pending. -/
def setWatermark (w : Nat) : Call Driver Unit := do
  if (← Action.state).pending then .fail .busy
  else onFifo (Fifo.setWatermark w)

/-- Sets how often later captures look for their result. -/
def setCaptureTimeout (polls : UInt32) (d : Driver) : Driver := { d with captureTimeout := polls }

/-- Reads a register of the documented map. -/
def readDocumented (a : UInt16) : Call Driver UInt8 := onBoard (Converter.readDocumented a)

/-- Writes a register of the documented map. -/
def writeDocumented (a : UInt16) (v : UInt8) : Call Driver Unit :=
  onBoard (Converter.writeDocumented a v)

end Driver

end AdcCapture
