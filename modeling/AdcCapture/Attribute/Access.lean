/-
  Showing and storing attributes. A text that does not denote a value the attribute can hold is
  refused before the converter is touched.
-/
import AdcCapture.Attribute.Basic
import AdcCapture.Attribute.Millivolts
import AdcCapture.Driver.Capture
import AdcCapture.Text.Unsigned

namespace AdcCapture

namespace Attribute

def directionText : PinDirection → String
  | .input => "input"
  | .output => "output"

def functionText : Option PinFunction → String
  | some .serialOut => "Cfg SPI SDO"
  | some .fifoFull => "FIFO Full Flag"
  | some .fifoReadDone => "FIFO Read Done Flag"
  | some .filterResultReady => "Filter Result Ready"
  | some .highThresholdDetect => "High Threshold Detect"
  | some .lowThresholdDetect => "Low Threshold Detect"
  | some .statusAlert => "Status Alert"
  | some .pinData => "GPIO Data"
  | some .filterSyncInput => "Filter Synch Input"
  | some .externalEventTrigger => "Ext Evt Trigger Input"
  | none => "Invalid Function"

def fifoModeText : FifoMode → String
  | .disabled => "FIFO disabled"
  | .immediateTrigger => "Immediate trigger mode"
  | .eventTriggerWatermark => "Evt trigger capture, read latest watermark"
  | .eventTriggerFullRead => "Evt trigger capture, read all FIFO"

def filterText : Filter → String
  | .disabled => "Disabled"
  | .sinc1 => "Sinc1"
  | .sinc5 => "Sinc5"
  | .sinc5Compensation => "Sinc5 Compensation"

def sincRateText : Option SincRate → String
  | some r => toString r.factor
  | none => "Invalid"

def operatingModeText : Option OperatingMode → String
  | some .normal => "Normal"
  | some .standby => "Standby"
  | some .sleep => "Sleep"
  | none => "Reserved"

/-- The text of an attribute that is read from the converter, or is constant. -/
def registerText : Attribute → Call Board String
  | raw => .fail .invalidArgument
  | scale => return Millivolts.text Millivolts.sampleStep
  | offset => return Millivolts.textOfCode Millivolts.offsetStep (← Converter.offset)
  | outputEnable p => return directionText (← Converter.pinDirection p)
  | function p => return functionText (← Converter.pinFunction p)
  | fifoMode => return fifoModeText (← Converter.fifoMode)
  | fifoWatermark => return toString (← Converter.watermark).toNat
  | hysteresis => return Millivolts.textOfCode Millivolts.eventStep (← Converter.hysteresis).toNat
  | threshold t => return Millivolts.textOfCode Millivolts.eventStep (← Converter.threshold t)
  | filterSelect => return filterText (← Converter.filter)
  | sincRate => return sincRateText (SincRate.ofCode? (← Converter.sincRateCode))
  | deviceMode => return operatingModeText (← Converter.operatingMode)

/-- The text of an attribute. Showing `raw` captures and gives the first sample. -/
def textOn {σ : Type} (p : Part σ Driver) (interrupts : Interrupts σ) (a : Attribute) :
    Call σ String := do
  match a with
  | raw => do
    Driver.captureOn p interrupts
    match (p.get (← Action.state)).samples[0]? with
    | some w => return toString w.toNat
    | none => .fail .invalidArgument
  | _ => Action.within (p.andThen Driver.boardPart) a.registerText

/-- What a stored text asks for. -/
inductive Setting where
  | offset (code : Int)
  | direction (pin : Pin) (d : PinDirection)
  | function (pin : Pin) (f : PinFunction)
  | fifoMode (m : FifoMode)
  | watermark (samples : Nat)
  | hysteresis (code : UInt16)
  | threshold (which : Threshold) (code : Int)
  | filter (f : Filter)
  | sincRate (r : SincRate)
  | operatingMode (m : OperatingMode)

/-- A value, or the refusal of a text that does not denote one. -/
def orInvalid {α : Type} : Option α → Outcome Cause α
  | some a => .ok a
  | none => .error .invalidArgument

/-- The code that a text in millivolts denotes. -/
def codeOf (input : String) (step : Binary32) (lo hi : Int) : Outcome Cause Int :=
  match Millivolts.ofText? input with
  | some mv => Millivolts.toCode mv step lo hi
  | none => .error .invalidArgument

/-- The value of an unsigned numeral of at most `limit`. -/
def upTo (limit : Nat) (input : String) : Outcome Cause Nat :=
  orInvalid ((Text.unsigned? input).filter (· ≤ limit))

/-- The value of an unsigned numeral that is the code of something. -/
def codedBy {α : Type} (ofCode? : UInt8 → Option α) (limit : Nat) (input : String) :
    Outcome Cause α :=
  match upTo limit input with
  | .ok n => orInvalid (ofCode? (UInt8.ofNat n))
  | .error e => .error e
  | .fault b => .fault b

def directionOfCode? (c : UInt8) : Option PinDirection :=
  if c = 0 then some .input else if c = 1 then some .output else none

/-- What storing a text into an attribute asks for. -/
def parse (a : Attribute) (input : String) : Outcome Cause Setting :=
  match a with
  | raw => .error .invalidArgument
  | scale => .error .invalidArgument
  | offset =>
    (codeOf input Millivolts.offsetStep WideField.offset.minSigned WideField.offset.maxSigned).map
      .offset
  | outputEnable p => (codedBy directionOfCode? 255 input).map (.direction p)
  | function p => (codedBy PinFunction.ofCode? 255 input).map (.function p)
  | fifoMode => (upTo 3 input).map fun n => .fifoMode (FifoMode.ofBits (UInt8.ofNat n))
  | fifoWatermark =>
    (orInvalid ((Text.unsigned? input).filter fun n => 1 ≤ n && n ≤ fifoDepth)).map .watermark
  | hysteresis =>
    (codeOf input Millivolts.eventStep 0 WideField.hysteresis.mask.toNat).map fun c =>
      .hysteresis (UInt16.ofNat c.toNat)
  | threshold t =>
    (codeOf input Millivolts.eventStep t.field.minSigned t.field.maxSigned).map (.threshold t)
  | filterSelect => (upTo 3 input).map fun n => .filter (Filter.ofBits (UInt8.ofNat n))
  | sincRate => (codedBy SincRate.ofCode? 255 input).map .sincRate
  | deviceMode => (codedBy OperatingMode.ofBits? 3 input).map .operatingMode

end Attribute

/-- Puts a setting into effect. -/
def Attribute.Setting.apply : Attribute.Setting → Call Driver Unit
  | offset c => Driver.onBoard (Converter.setOffset c)
  | direction p d => Driver.onBoard (Converter.setPinDirection p d)
  | function p f => Driver.onBoard (Converter.setPinFunction p f)
  | fifoMode m => Driver.onBoard (Converter.setFifoMode m)
  | watermark w => Driver.setWatermark w
  | hysteresis c => Driver.onBoard (Converter.setHysteresis c)
  | threshold t c => Driver.onBoard (Converter.setThreshold t c)
  | filter f => Driver.onBoard (Converter.setFilter f)
  | sincRate r => Driver.onBoard (Converter.setSincRate r)
  | operatingMode m => Driver.onBoard (Converter.setOperatingMode m)

namespace Driver

/-- A text for a client with room for `room` bytes, if that is limited. -/
def fitting {σ : Type} (room : Option Nat) (s : String) : Call σ String :=
  match room with
  | some n => if n < s.utf8ByteSize then .fail .bufferFull else return s
  | none => return s

/-- Shows the attribute with the given index, on a state that a driver is a part of. -/
def showAttributeOn {σ : Type} (p : Part σ Driver) (interrupts : Interrupts σ) (index : Nat)
    (room : Option Nat) : Call σ String :=
  match Attribute.ofIndex? index with
  | none => .fail .invalidArgument
  | some a => do fitting room (← a.textOn p interrupts)

/-- Stores a text into the attribute with the given index. -/
def storeAttribute (index : Nat) (input : String) : Call Driver Unit :=
  match Attribute.ofIndex? index with
  | none => .fail .invalidArgument
  | some a => do
    onBoard (Board.log (.attributeStored a.name input))
    let s ← Action.give (a.parse input)
    s.apply

end Driver

end AdcCapture
