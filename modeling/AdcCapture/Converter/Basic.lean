/-
  Typed calls to the converter. A field of one register is set by reading the register, merging
  the field and writing it back; a field of two registers is read high byte first and written low
  byte first. A failed access ends the call, and nothing is retried.
-/
import AdcCapture.Board.Bus
import AdcCapture.Sample

namespace AdcCapture

/-- Why a call to the library failed. -/
abbrev Cause := Failure BusFault

/-- A call on a state `σ` that can fail with a cause. -/
abbrev Call (σ α : Type) := Action σ Cause α

namespace Converter

/-- Reads one register. -/
def read (a : UInt16) : Call Board UInt8 := (Board.readRegister a).mapError .bus

/-- Writes one register. -/
def write (a : UInt16) (v : UInt8) : Call Board Unit := (Board.writeRegister a v).mapError .bus

/-- Reads bytes of the FIFO, the synchronisation byte first. -/
def readData (bytes : Nat) : Call Board (Array UInt8) := (Board.readData bytes).mapError .bus

def getField (f : Field) : Call Board UInt8 := do
  return f.get (← read f.address)

def setField (f : Field) (value : UInt8) : Call Board Unit := do
  let current ← read f.address
  write f.address (f.put value current)

def getWide (f : WideField) : Call Board UInt16 := do
  let high ← read f.high
  let low ← read f.low
  return f.join high low

/-- Sets a field of two registers; bits of the value above the field are dropped. -/
def setWide (f : WideField) (value : UInt16) : Call Board Unit := do
  write f.low (f.lowByte value)
  write f.high (f.highByte value)

def getSigned (f : WideField) : Call Board Int := do
  return f.toSigned (← getWide f)

/-- Sets a two's-complement field; a code outside its range is refused before any access. -/
def setSigned (f : WideField) (code : Int) : Call Board Unit :=
  if code < f.minSigned ∨ f.maxSigned < code then .fail .invalidArgument
  else setWide f (WideField.ofSigned code)

/-! ## Identification -/

def productId : Call Board UInt16 := getWide .productId

/-- Resets the converter and checks its product number. -/
def init : Call Board Unit := do
  write Register.interfaceConfigA Register.softReset
  let id ← productId
  if id = Register.productId then return ()
  else do
    Board.log (.unexpectedProduct id)
    .fail (.unknownDevice id)

/-- Reads a register of the documented map. -/
def readDocumented (a : UInt16) : Call Board UInt8 :=
  if Register.last < a then .fail .invalidArgument else read a

/-- Writes a register of the documented map. -/
def writeDocumented (a : UInt16) (v : UInt8) : Call Board Unit :=
  if Register.last < a then .fail .invalidArgument else write a v

/-! ## FIFO -/

def fifoMode : Call Board FifoMode := do
  return .ofBits (← getField .fifoMode)

def setFifoMode (m : FifoMode) : Call Board Unit := setField .fifoMode m.code

def watermark : Call Board UInt16 := getWide .watermark

/-- Programs the watermark; it has to be positive and within the FIFO's depth. -/
def setWatermark (w : UInt16) : Call Board Unit :=
  if w = 0 ∨ fifoDepth < w.toNat then .fail .invalidArgument else setWide .watermark w

def status : Call Board UInt8 := read Register.deviceStatus

def fifoFull : Call Board Bool := do
  return (← status) &&& Register.fifoFull ≠ 0

/-! ## Pins -/

def pinDirection (p : Pin) : Call Board PinDirection := do
  return .ofBit (← getField p.directionField)

def setPinDirection (p : Pin) (d : PinDirection) : Call Board Unit :=
  setField p.directionField d.code

def pinFunctionCode (p : Pin) : Call Board UInt8 := getField p.functionField

/-- The function of a pin, if the field holds the code of one. -/
def pinFunction (p : Pin) : Call Board (Option PinFunction) := do
  return PinFunction.ofCode? (← pinFunctionCode p)

def setPinFunction (p : Pin) (f : PinFunction) : Call Board Unit :=
  setField p.functionField f.code

/-! ## Offset and event detection -/

def offset : Call Board Int := getSigned .offset

def setOffset (code : Int) : Call Board Unit := setSigned .offset code

def hysteresis : Call Board UInt16 := getWide .hysteresis

def setHysteresis (code : UInt16) : Call Board Unit := setWide .hysteresis code

def threshold (t : Threshold) : Call Board Int := getSigned t.field

def setThreshold (t : Threshold) (code : Int) : Call Board Unit := setSigned t.field code

/-! ## Filter and power -/

def filter : Call Board Filter := do
  return .ofBits (← getField .filterSelect)

def setFilter (f : Filter) : Call Board Unit := setField .filterSelect f.code

def sincRateCode : Call Board UInt8 := getField .sincDecimation

def setSincRate (r : SincRate) : Call Board Unit := setField .sincDecimation r.code

def operatingModeBits : Call Board UInt8 := getField .operatingMode

/-- The power mode, unless the reserved code is set. -/
def operatingMode : Call Board (Option OperatingMode) := do
  return OperatingMode.ofBits? (← operatingModeBits)

def setOperatingMode (m : OperatingMode) : Call Board Unit := setField .operatingMode m.code

end Converter

end AdcCapture
