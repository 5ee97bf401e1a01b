/-
  Scripts on a descriptor. A step may handle an interrupt whose consumer runs further steps, so
  steps and their replies are trees.
-/
import AdcCapture.Fifo.Interrupt
import AdcCapture.Script.Reply

namespace AdcCapture

/-- What a descriptor shows after a step. -/
structure FifoView where
  live : Bool
  watermark : Nat
  rawSize : Nat
  formattedSize : Nat
  bound : Bool
deriving DecidableEq, Repr

def Fifo.view (f : Fifo) : FifoView where
  live := f.live
  watermark := f.watermark
  rawSize := f.rawSize
  formattedSize := f.formattedSize
  bound := f.binding.isSome

/-- A part of an array, cut to what there is, and the size of the whole. -/
def sampleWindow (a : Array UInt32) (start : Nat) (count : Option Nat) : Value :=
  let rest := a.toList.drop start
  .samples (count.elim rest rest.take) a.size

inductive FifoStep where
  | board (s : BoardStep)
  | converter (s : ConverterStep)
  | setWatermark (samples : Nat)
  | unsetWatermark
  | arm
  | disable
  | readSamples
  | registerIrq (pin : Nat)
  | unregisterIrq
  | finalise
  | samples (start : Nat) (count : Option Nat)
  | interrupt (consumer : List FifoStep)

/-- The reply to a step: its answer, the descriptor after it and, for an interrupt that was
handled, the replies of the consumer if it ran. -/
inductive FifoReply where
  | plain (answer : Answer) (view : FifoView)
  | handled (answer : Answer) (consumer : Option (List FifoReply)) (view : FifoView)

/-- A descriptor while it handles an interrupt, and the replies of the consumer once it ran. -/
structure Handling where
  fifo : Fifo
  replies : Option (List FifoReply) := none

def Handling.fifoPart : Part Handling Fifo where
  get h := h.fifo
  set f h := { h with fifo := f }

namespace FifoStep

/-- Puts a mark into the record of the board. -/
def markEvent (e : Event) (f : Fifo) : Fifo :=
  { f with board := { f.board with record := e :: f.board.record } }

/-- Runs the steps of a consumer between two marks. -/
def consumerOf (body : Fifo → List FifoReply × Fifo) : Action Handling Empty Unit := fun h =>
  match body (markEvent (.enter .consumer) h.fifo) with
  | (rs, f) => (.ok (), { fifo := markEvent (.leave .consumer) f, replies := some rs })

def eventName : IrqEvent → Value
  | .fifoFull => .name "FifoFull"
  | .spurious => .name "Spurious"

/-- Handles an interrupt with the given consumer. -/
def handle (body : Fifo → List FifoReply × Fifo) (f : Fifo) : FifoReply × Fifo :=
  match Fifo.handleInterrupt Handling.fifoPart (consumerOf body) { fifo := f } with
  | (.fault b, h) => (.plain (.fault b) h.fifo.view, h.fifo)
  | (o, h) => (.handled (.ofOutcome eventName o) h.replies h.fifo.view, h.fifo)

def call (c : Call Fifo Unit) (f : Fifo) : FifoReply × Fifo :=
  match c f with
  | (o, f) => (.plain (.ofOutcome (fun _ => .unit) o) f.view, f)

def onBoard (run : Board → Answer × Board) (f : Fifo) : FifoReply × Fifo :=
  match run f.board with
  | (a, b) =>
    let f := { f with board := b }
    (.plain a f.view, f)

mutual

def run : FifoStep → Fifo → FifoReply × Fifo
  | board s, f => onBoard s.run f
  | converter s, f => onBoard s.run f
  | setWatermark n, f => call (Fifo.setWatermark n) f
  | unsetWatermark, f => call Fifo.unsetWatermark f
  | arm, f => call Fifo.arm f
  | disable, f => call Fifo.disable f
  | readSamples, f => call Fifo.readSamples f
  | registerIrq i, f => call (Fifo.registerIrq i) f
  | unregisterIrq, f => call Fifo.unregisterIrq f
  | finalise, f => (.plain .unit f.finalise.view, f.finalise)
  | samples start count, f => (.plain (.value (sampleWindow f.samples start count)) f.view, f)
  | interrupt consumer, f => handle (fun f => runAll consumer f) f

def runAll : List FifoStep → Fifo → List FifoReply × Fifo
  | [], f => ([], f)
  | s :: rest, f =>
    match run s f with
    | (r, f) =>
      match runAll rest f with
      | (rs, f) => (r :: rs, f)

end

end FifoStep

/-- A step of a session: on the descriptor, or on its existence. -/
inductive FifoSessionStep where
  | step (s : FifoStep)
  /-- A fresh descriptor on the same board. -/
  | renew
  /-- Drops the descriptor and reads the product number over the board's bus. -/
  | release

/-- A session: a descriptor, or the board that is left of it. -/
inductive FifoSession where
  | holding (f : Fifo)
  | released (b : Board)

inductive FifoSessionReply where
  | reply (r : FifoReply)
  | bare (answer : Answer)

namespace FifoSession

def board : FifoSession → Board
  | holding f => f.board
  | released b => b

def run (s : FifoSessionStep) (t : FifoSession) : FifoSessionReply × FifoSession :=
  match s, t with
  | .renew, t => (.bare .unit, holding { board := t.board })
  | .release, holding f =>
    match ConverterStep.call ConverterStep.word Converter.productId f.board with
    | (a, b) => (.bare a, released b)
  | .step s, holding f =>
    match s.run f with
    | (r, f) => (.reply r, holding f)
  | _, released b => (.bare .noFifo, released b)

def clearRecord : FifoSession → FifoSession
  | holding f => holding { f with board := { f.board with record := [] } }
  | released b => released { b with record := [] }

/-- Runs the steps of a session in order; with each reply comes what happened during the step. -/
def runAll : List FifoSessionStep → FifoSession → List (FifoSessionReply × List Event)
  | [], _ => []
  | s :: rest, t =>
    match run s t.clearRecord with
    | (r, t) => (r, t.board.record.reverse) :: runAll rest t

end FifoSession

end AdcCapture
