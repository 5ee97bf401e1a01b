/-
  The FIFO descriptor: a board, buffers of the size of the watermark, and the binding of the
  FIFO-full interrupt. Changing the watermark turns the FIFO off, gives both buffers back and
  asks for new ones; any failure on the way leaves the descriptor without buffers.
-/
import AdcCapture.Converter.Basic
import AdcCapture.Fifo.Buffers

namespace AdcCapture

/-- Where the FIFO-full interrupt comes from. -/
structure Binding where
  pin : Pin
  irq : UInt32
deriving DecidableEq, Repr

structure Fifo where
  board : Board
  /-- False once the descriptor has been finalised. -/
  live : Bool := true
  buffers : Option Buffers := none
  binding : Option Binding := none

namespace Fifo

/-- The board of a descriptor. -/
def boardPart : Part Fifo Board where
  get f := f.board
  set b f := { f with board := b }

/-- Makes a call to the board. -/
def onBoard {ε α : Type} (a : Action Board ε α) : Action Fifo ε α := Action.within boardPart a

/-- The watermark in samples; 0 without buffers. -/
def watermark (f : Fifo) : Nat := f.buffers.elim 0 Buffers.watermark

def rawSize (f : Fifo) : Nat := f.buffers.elim 0 Buffers.rawSize

def formattedSize (f : Fifo) : Nat := f.buffers.elim 0 Buffers.formattedSize

/-- The samples of the last readout; none without buffers. -/
def samples (f : Fifo) : Array UInt32 := f.buffers.elim #[] Buffers.samples

/-- Finalises the descriptor: an interrupt that reaches it from now on is a fault. -/
def finalise (f : Fifo) : Fifo := { f with live := false }

/-- Turns the FIFO off. -/
def disable : Call Fifo Unit := onBoard (Converter.setFifoMode .disabled)

/-- Turns the FIFO off and gives the buffers back, also when turning it off fails. -/
def unsetWatermark : Call Fifo Unit := do
  let r ← Action.attempt disable
  Action.update fun f => { f with buffers := none }
  Action.ofExcept r

/-- Buffers for `w` samples from the board's allocator. -/
def newBuffers (w : Nat) : Call Board Buffers :=
  (Action.within Board.allocation (Buffers.allocate w)).recover fun _ => do
    Board.log (.noMemory w)
    .fail .outOfMemory

/-- Sizes the buffers for `w` samples and programs the converter's watermark. -/
def setWatermark (w : Nat) : Call Fifo Unit := do
  let f ← Action.state
  if !f.live || w < 1 || fifoDepth < w then .fail .invalidArgument
  else do
    unsetWatermark
    let b ← onBoard (newBuffers w)
    onBoard (Converter.setWatermark (UInt16.ofNat w))
    Action.update fun f => { f with buffers := some b }
    onBoard (Board.log (.watermarkSet w b.rawSize b.formattedSize))

/-- Lets the converter fill its FIFO at once. -/
def arm : Call Fifo Unit := do
  let f ← Action.state
  if f.buffers.isNone then .fail .invalidArgument
  else onBoard (Converter.setFifoMode .immediateTrigger)

/-- Reads the FIFO into the buffers and decodes it. -/
def readSamples : Call Fifo Unit := do
  let f ← Action.state
  match f.buffers with
  | none => .fail .invalidArgument
  | some b => do
    let raw ← onBoard (Converter.readData b.rawSize)
    let b := { b with raw := raw }
    Action.update fun f => { f with buffers := some b }
    let b ← Action.give b.format
    Action.update fun f => { f with buffers := some b }

end Fifo

end AdcCapture
