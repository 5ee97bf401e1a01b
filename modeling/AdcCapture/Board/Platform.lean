/-
  The calls to the platform: the input line of the interrupt, and the interrupt controller.
-/
import AdcCapture.Board.Basic

namespace AdcCapture.Board

/-- Whether a call can fail at all: giving the line back and taking the controller down cannot. -/
def canFail (c : PlatformCall) : Bool := c ≠ .gpioRelease && c ≠ .irqRemove

/-- Makes a platform call and keeps a note of it. A call on an interrupt is passed its number. -/
def platform (c : PlatformCall) (irq : Option UInt32) : Action Board PlatformCall Unit := fun b =>
  let refused := b.refuses b.calls c
  let next := { b with
    calls := b.calls + 1
    record := .platform c irq (!refused) :: b.record }
  (if refused && canFail c then .error c else .ok (), next)

end AdcCapture.Board
