/-
  The settings of the converter: what its fields can hold, with the code of each value.
-/
import AdcCapture.Converter.Register

namespace AdcCapture

/-- When the converter's FIFO takes samples. -/
inductive FifoMode where
  | disabled
  /-- From the moment the mode is set. -/
  | immediateTrigger
  /-- On an event; the latest watermark's worth is read. -/
  | eventTriggerWatermark
  /-- On an event; the whole FIFO is read. -/
  | eventTriggerFullRead
deriving DecidableEq, Repr

namespace FifoMode

def code : FifoMode → UInt8
  | disabled => 0
  | immediateTrigger => 1
  | eventTriggerWatermark => 2
  | eventTriggerFullRead => 3

/-- The mode of the two lowest bits. -/
def ofBits (bits : UInt8) : FifoMode :=
  if bits &&& 3 = 0 then disabled
  else if bits &&& 3 = 1 then immediateTrigger
  else if bits &&& 3 = 2 then eventTriggerWatermark
  else eventTriggerFullRead

def name : FifoMode → String
  | disabled => "Disabled"
  | immediateTrigger => "ImmediateTrigger"
  | eventTriggerWatermark => "EventTriggerWatermark"
  | eventTriggerFullRead => "EventTriggerFullRead"

end FifoMode

/-- One of the four general-purpose pins. -/
inductive Pin where
  | gp0 | gp1 | gp2 | gp3
deriving DecidableEq, Repr

namespace Pin

def all : List Pin := [gp0, gp1, gp2, gp3]

def index : Pin → Nat
  | gp0 => 0
  | gp1 => 1
  | gp2 => 2
  | gp3 => 3

def ofIndex? (i : Nat) : Option Pin := all[i]?

def name : Pin → String
  | gp0 => "Gp0"
  | gp1 => "Gp1"
  | gp2 => "Gp2"
  | gp3 => "Gp3"

/-- The direction bit of the pin: set for an output. -/
def directionField (p : Pin) : Field := ⟨Register.pinConfigA, UInt8.ofNat p.index, 1⟩

/-- The four bits that select the pin's function. -/
def functionField : Pin → Field
  | gp0 => ⟨Register.pinConfigB, 0, 4⟩
  | gp1 => ⟨Register.pinConfigB, 4, 4⟩
  | gp2 => ⟨Register.pinConfigC, 0, 4⟩
  | gp3 => ⟨Register.pinConfigC, 4, 4⟩

end Pin

inductive PinDirection where
  | input | output
deriving DecidableEq, Repr

namespace PinDirection

def code : PinDirection → UInt8
  | input => 0
  | output => 1

def ofBit (bit : UInt8) : PinDirection := if bit = 0 then input else output

def name : PinDirection → String
  | input => "Input"
  | output => "Output"

end PinDirection

/-- What a pin carries. -/
inductive PinFunction where
  /-- The data output of the configuration bus. -/
  | serialOut
  | fifoFull
  | fifoReadDone
  | filterResultReady
  | highThresholdDetect
  | lowThresholdDetect
  | statusAlert
  | pinData
  | filterSyncInput
  | externalEventTrigger
deriving DecidableEq, Repr

namespace PinFunction

/-- All functions, in the order of their codes. -/
def all : List PinFunction :=
  [serialOut, fifoFull, fifoReadDone, filterResultReady, highThresholdDetect, lowThresholdDetect,
    statusAlert, pinData, filterSyncInput, externalEventTrigger]

def code : PinFunction → UInt8
  | serialOut => 0
  | fifoFull => 1
  | fifoReadDone => 2
  | filterResultReady => 3
  | highThresholdDetect => 4
  | lowThresholdDetect => 5
  | statusAlert => 6
  | pinData => 7
  | filterSyncInput => 8
  | externalEventTrigger => 9

def ofCode? (c : UInt8) : Option PinFunction := all[c.toNat]?

def name : PinFunction → String
  | serialOut => "SpiSdo"
  | fifoFull => "FifoFull"
  | fifoReadDone => "FifoReadDone"
  | filterResultReady => "FilterResultReady"
  | highThresholdDetect => "HighThresholdDetect"
  | lowThresholdDetect => "LowThresholdDetect"
  | statusAlert => "StatusAlert"
  | pinData => "GpioData"
  | filterSyncInput => "FilterSyncInput"
  | externalEventTrigger => "ExternalEventTrigger"

end PinFunction

/-- The digital filter. -/
inductive Filter where
  | disabled | sinc1 | sinc5 | sinc5Compensation
deriving DecidableEq, Repr

namespace Filter

def code : Filter → UInt8
  | disabled => 0
  | sinc1 => 1
  | sinc5 => 2
  | sinc5Compensation => 3

/-- The filter of the two lowest bits. -/
def ofBits (bits : UInt8) : Filter :=
  if bits &&& 3 = 0 then disabled
  else if bits &&& 3 = 1 then sinc1
  else if bits &&& 3 = 2 then sinc5
  else sinc5Compensation

def name : Filter → String
  | disabled => "Disabled"
  | sinc1 => "Sinc1"
  | sinc5 => "Sinc5"
  | sinc5Compensation => "Sinc5Compensation"

end Filter

/-- A decimation rate of the sinc filter, by its code. -/
structure SincRate where
  code : UInt8
  code_lt : code < 10
deriving DecidableEq

namespace SincRate

/-- The number of rates. -/
def count : Nat := 10

def ofCode? (c : UInt8) : Option SincRate := if h : c < 10 then some ⟨c, h⟩ else none

/-- How many input samples make one output sample: code `n` stands for `2 ^ (n + 1)`. -/
def factor (r : SincRate) : Nat := 2 <<< r.code.toNat

end SincRate

/-- The power mode. Code 1 is reserved. -/
inductive OperatingMode where
  | normal | standby | sleep
deriving DecidableEq, Repr

namespace OperatingMode

def code : OperatingMode → UInt8
  | normal => 0
  | standby => 2
  | sleep => 3

/-- The mode of the two lowest bits. -/
def ofBits? (bits : UInt8) : Option OperatingMode :=
  if bits &&& 3 = 0 then some normal
  else if bits &&& 3 = 2 then some standby
  else if bits &&& 3 = 3 then some sleep
  else none

def name : OperatingMode → String
  | normal => "Normal"
  | standby => "Standby"
  | sleep => "Sleep"

end OperatingMode

/-- An event-detection threshold. -/
inductive Threshold where
  | high | low
deriving DecidableEq, Repr

def Threshold.field : Threshold → WideField
  | high => WideField.highThreshold
  | low => WideField.lowThreshold

end AdcCapture
