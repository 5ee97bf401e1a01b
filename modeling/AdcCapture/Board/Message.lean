/-
  The log messages of the library by cause, with their levels and texts.
-/
import AdcCapture.Failure
import AdcCapture.Converter.Setting
import AdcCapture.Text.Quoted

namespace AdcCapture

/-- A call to the platform around the converter: the input line that the interrupt comes in on,
and the interrupt controller. -/
inductive PlatformCall where
  | gpioAcquire
  | gpioSetInput
  | gpioRelease
  | irqInit
  | irqRegister
  | irqUnregister
  /-- Selects the high level as the trigger. -/
  | irqTrigger
  | irqEnable
  | irqDisable
  | irqRemove
deriving DecidableEq, Repr

namespace PlatformCall

def all : List PlatformCall :=
  [gpioAcquire, gpioSetInput, gpioRelease, irqInit, irqRegister, irqUnregister, irqTrigger,
    irqEnable, irqDisable, irqRemove]

def name : PlatformCall → String
  | gpioAcquire => "gpio_acquire"
  | gpioSetInput => "gpio_set_input"
  | gpioRelease => "gpio_release"
  | irqInit => "irq_init"
  | irqRegister => "irq_register"
  | irqUnregister => "irq_unregister"
  | irqTrigger => "irq_trigger"
  | irqEnable => "irq_enable"
  | irqDisable => "irq_disable"
  | irqRemove => "irq_remove"

/-- The text of the call's failure. -/
def failureText (c : PlatformCall) : String := "PlatformError(\"" ++ c.name ++ "\")"

end PlatformCall

inductive LogLevel where
  | debug | info | warn | error
deriving DecidableEq, Repr

def LogLevel.name : LogLevel → String
  | debug => "DEBUG"
  | info => "INFO"
  | warn => "WARN"
  | error => "ERROR"

/-- Something the library reports in its log. -/
inductive Message where
  | unexpectedProduct (id : UInt16)
  | noMemory (samples : Nat)
  | watermarkSet (samples rawBytes formattedBytes : Nat)
  | lineFailed (call : PlatformCall)
  | controllerFailed (call : PlatformCall)
  | disableFailed (irq : UInt32)
  | unregisterFailed (irq : UInt32)
  | interruptBound (pin : Pin) (irq : UInt32)
  | spuriousInterrupt
  | ready (watermark pin : Nat)
  | unbindFailed (cause : Failure BusFault)
  | unsetFailed (cause : Failure BusFault)
  | removed
  | noCapturePending
  | interruptFailed (cause : Failure BusFault)
  | captureArmed
  | captureTimedOut (polls : UInt32)
  | abandonFailed (cause : Failure BusFault)
  | captureComplete
  | submitTruncated (taken available : Nat)
  | attributeStored (name input : String)
deriving DecidableEq, Repr

namespace Message

def level : Message → LogLevel
  | unexpectedProduct _ => .warn
  | noMemory _ => .warn
  | watermarkSet _ _ _ => .debug
  | lineFailed _ => .warn
  | controllerFailed _ => .warn
  | disableFailed _ => .warn
  | unregisterFailed _ => .warn
  | interruptBound _ _ => .debug
  | spuriousInterrupt => .warn
  | ready _ _ => .info
  | unbindFailed _ => .warn
  | unsetFailed _ => .warn
  | removed => .info
  | noCapturePending => .warn
  | interruptFailed _ => .warn
  | captureArmed => .debug
  | captureTimedOut _ => .error
  | abandonFailed _ => .warn
  | captureComplete => .debug
  | submitTruncated _ _ => .warn
  | attributeStored _ _ => .debug

def text : Message → String
  | unexpectedProduct id => "ad4080: unexpected product id 0x" ++ hexadecimal 4 id.toNat
  | noMemory n => s!"fifo: cannot allocate buffers for {n} samples"
  | watermarkSet n r f => s!"fifo: watermark {n} (raw {r} B, formatted {f} B)"
  | lineFailed c => "fifo: GPIO failure: " ++ c.failureText
  | controllerFailed c => "fifo: interrupt controller failure: " ++ c.failureText
  | disableFailed irq =>
    s!"fifo: irq {irq.toNat} disable failed: " ++ PlatformCall.irqDisable.failureText
  | unregisterFailed irq =>
    s!"fifo: irq {irq.toNat} unregister failed: " ++ PlatformCall.irqUnregister.failureText
  | interruptBound pin irq => s!"fifo: FIFO-full on {pin.name}, irq {irq.toNat}"
  | spuriousInterrupt => "fifo: spurious FIFO-full interrupt"
  | ready w pin => s!"ad4080: ready, watermark {w}, FIFO-full on GP{pin}"
  | unbindFailed e => "ad4080: unregister irq: " ++ e.detail BusFault.text
  | unsetFailed e => "ad4080: unset watermark: " ++ e.detail BusFault.text
  | removed => "ad4080: removed"
  | noCapturePending => "ad4080: FIFO full with no capture pending"
  | interruptFailed e => "ad4080: FIFO-full interrupt: " ++ e.detail BusFault.text
  | captureArmed => "ad4080: capture armed"
  | captureTimedOut polls => s!"ad4080: capture timed out after {polls.toNat} polls"
  | abandonFailed e => "ad4080: FIFO disable after timeout: " ++ e.detail BusFault.text
  | captureComplete => "ad4080: capture complete"
  | submitTruncated t n => s!"ad4080: submit truncated to {t} of {n} samples by buffer capacity"
  | attributeStored name input => s!"ad4080: store {name} = " ++ Text.quoted input

end Message

end AdcCapture
