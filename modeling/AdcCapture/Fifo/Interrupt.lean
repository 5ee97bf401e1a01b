/-
  The FIFO-full interrupt: binding it to a pin of the converter, taking the binding down, and
  handling it. Binding goes through the platform first and the converter last; a step that fails
  takes down the platform steps before it.
-/
import AdcCapture.Fifo.Basic
import AdcCapture.Board.Platform

namespace AdcCapture

/-- What an interrupt turned out to be. -/
inductive IrqEvent where
  /-- The FIFO was full: the consumer ran and the FIFO was turned off. -/
  | fifoFull
  /-- The FIFO was not full: nothing was done. -/
  | spurious
deriving DecidableEq, Repr

namespace Fifo

/-- Gives the input line back. -/
def releaseLine {ε : Type} : Action Board ε Unit :=
  (Board.platform .gpioRelease none).recover fun _ => pure ()

/-- Takes the interrupt controller down. -/
def removeController {ε : Type} : Action Board ε Unit :=
  (Board.platform .irqRemove none).recover fun _ => pure ()

/-- Takes the platform side of a binding down: disable, if it was enabled, then unregister,
remove and release. A failure is reported in the log and stops nothing. -/
def teardown {ε : Type} (irq : UInt32) (enabled : Bool) : Action Board ε Unit := do
  if enabled then
    (Board.platform .irqDisable (some irq)).recover fun _ => Board.log (.disableFailed irq)
  else pure ()
  (Board.platform .irqUnregister (some irq)).recover fun _ => Board.log (.unregisterFailed irq)
  removeController
  releaseLine

def lineError {α : Type} (c : PlatformCall) : Call Board α := do
  Board.log (.lineFailed c)
  .fail .gpio

def controllerError {α : Type} (c : PlatformCall) : Call Board α := do
  Board.log (.controllerFailed c)
  .fail .irq

/-- Sets the platform up for the interrupt of the input line. -/
def setUpPlatform (irq : UInt32) : Call Board Unit := do
  (Board.platform .gpioAcquire none).recover lineError
  (Board.platform .gpioSetInput none).recover fun c => do
    releaseLine
    lineError c
  (Board.platform .irqInit none).recover fun c => do
    releaseLine
    controllerError c
  (Board.platform .irqRegister (some irq)).recover fun c => do
    removeController
    releaseLine
    controllerError c
  (do Board.platform .irqTrigger (some irq)
      Board.platform .irqEnable (some irq) : Action Board PlatformCall Unit).recover fun c => do
    teardown irq false
    controllerError c

/-- Makes a pin of the converter signal that the FIFO is full. -/
def routePin (p : Pin) : Call Board Unit := do
  Converter.setPinDirection p .output
  Converter.setPinFunction p .fifoFull

/-- Binds the FIFO-full interrupt to the pin with the given index. -/
def registerIrq (pinIndex : Nat) : Call Fifo Unit := do
  let f ← Action.state
  if !f.live || f.binding.isSome then .fail .invalidArgument
  else
    match Pin.ofIndex? pinIndex with
    | none => .fail .invalidArgument
    | some pin => do
      let irq := f.board.irq
      onBoard (setUpPlatform irq)
      onBoard ((routePin pin).recover fun e => do
        teardown irq true
        .fail e)
      onBoard (Board.log (.interruptBound pin irq))
      Action.update fun f => { f with binding := some ⟨pin, irq⟩ }

/-- Takes the binding down, if there is one. The platform side goes down even if the pin cannot
be restored; that failure is returned afterwards. -/
def unregisterIrq : Call Fifo Unit := do
  let f ← Action.state
  match f.binding with
  | none => return ()
  | some b => do
    Action.update fun f => { f with binding := none }
    let restored ← Action.attempt (onBoard (Converter.setPinFunction b.pin .serialOut))
    onBoard (teardown b.irq true)
    Action.ofExcept restored

/-- Handles the interrupt on a state that a descriptor is a part of. If the FIFO is full the
consumer runs, and the FIFO is turned off after it. -/
def handleInterrupt {σ : Type} (p : Part σ Fifo) (consumer : Action σ Empty Unit) :
    Call σ IrqEvent := do
  if !(p.get (← Action.state)).live then .give (.fault .deadDescriptor)
  else do
    let full ← Action.within (p.andThen boardPart) Converter.fifoFull
    if full then do
      consumer.mapError Empty.elim
      Action.within p disable
      return .fifoFull
    else do
      Action.within (p.andThen boardPart) (Board.log .spuriousInterrupt)
      return .spurious

end Fifo

end AdcCapture
