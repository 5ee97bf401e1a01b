/-
  Errors of the library by cause, with their texts and error numbers, and the two kinds of bus
  failure that can stand behind them.
-/

namespace AdcCapture

/-- What a serial peripheral reports when a transfer fails. -/
inductive SerialFault where
  | overrun | modeFault | frameFormat | chipSelect | other
deriving DecidableEq, Repr

namespace SerialFault

/-- The kind that a numeric fault code stands for. -/
def ofCode (code : UInt32) : SerialFault :=
  if code = 0 then overrun
  else if code = 1 then modeFault
  else if code = 2 then frameFormat
  else if code = 3 then chipSelect
  else other

def name : SerialFault → String
  | overrun => "Overrun"
  | modeFault => "ModeFault"
  | frameFormat => "FrameFormat"
  | chipSelect => "ChipSelectFault"
  | other => "Other"

end SerialFault

/-- Why a bus access failed: a register bus gives its own code, a serial bus one of five kinds. -/
inductive BusFault where
  | code (n : UInt32)
  | serial (kind : SerialFault)
deriving DecidableEq, Repr

/-- The text of a bus failure inside messages. -/
def BusFault.text : BusFault → String
  | code n => s!"MockBusError({n.toNat})"
  | serial k => k.name

/-- Digits of `n` in base sixteen, at least `width` of them. -/
def hexadecimal (width n : Nat) : String :=
  let digits := Nat.toDigits 16 n
  String.ofList (List.replicate (width - digits.length) '0' ++ digits)

/-- Why an operation failed; `ε` is the kind of failure of the bus below. -/
inductive Failure (ε : Type) where
  /-- The argument is out of range, or the operation is not possible in this state. -/
  | invalidArgument
  | outOfMemory
  | bus (cause : ε)
  | gpio
  | irq
  | timeout
  | busy
  | bufferFull
  /-- The converter answered with another product number. -/
  | unknownDevice (id : UInt16)
deriving DecidableEq, Repr

namespace Failure

variable {ε : Type}

/-- The message for people; `describe` gives the text of a bus failure. -/
def message (describe : ε → String) : Failure ε → String
  | invalidArgument => "invalid argument"
  | outOfMemory => "out of memory"
  | bus e => "register bus error: " ++ describe e
  | gpio => "GPIO error"
  | irq => "interrupt controller error"
  | timeout => "capture timed out"
  | busy => "capture already in progress"
  | bufferFull => "destination buffer full"
  | unknownDevice id => "unexpected product id 0x" ++ hexadecimal 4 id.toNat

/-- The negative error number of the cause. -/
def errno : Failure ε → Int
  | invalidArgument => -22
  | outOfMemory => -12
  | bus _ => -5
  | gpio => -5
  | irq => -5
  | timeout => -110
  | busy => -16
  | bufferFull => -28
  | unknownDevice _ => -19

/-- The name of the cause. -/
def name : Failure ε → String
  | invalidArgument => "InvalidArgument"
  | outOfMemory => "OutOfMemory"
  | bus _ => "Bus"
  | gpio => "Gpio"
  | irq => "Irq"
  | timeout => "Timeout"
  | busy => "Busy"
  | bufferFull => "BufferFull"
  | unknownDevice _ => "UnknownDevice"

/-- The cause with its detail, as it stands in log lines. -/
def detail (describe : ε → String) (f : Failure ε) : String :=
  match f with
  | bus e => s!"{f.name}({describe e})"
  | unknownDevice id => s!"{f.name}({id.toNat})"
  | _ => f.name

end Failure

end AdcCapture
