/-
  The converter's register map: addresses, and fields of registers as values. A field knows its
  place, so reading it out of a byte and merging it into one are the same two functions for all.
-/

namespace AdcCapture

namespace Register

def interfaceConfigA : UInt16 := 0x00
def interfaceConfigB : UInt16 := 0x01
def deviceConfig : UInt16 := 0x02
def chipType : UInt16 := 0x03
def productIdLow : UInt16 := 0x04
def productIdHigh : UInt16 := 0x05
def chipGrade : UInt16 := 0x06
def scratchPad : UInt16 := 0x0A
def deviceStatus : UInt16 := 0x14
def pinConfigA : UInt16 := 0x19
def pinConfigB : UInt16 := 0x1A
def pinConfigC : UInt16 := 0x1B
def generalConfig : UInt16 := 0x1C
def watermarkLow : UInt16 := 0x1D
def watermarkHigh : UInt16 := 0x1E
def hysteresisLow : UInt16 := 0x1F
def hysteresisHigh : UInt16 := 0x20
def highThresholdLow : UInt16 := 0x21
def highThresholdHigh : UInt16 := 0x22
def lowThresholdLow : UInt16 := 0x23
def lowThresholdHigh : UInt16 := 0x24
def offsetLow : UInt16 := 0x25
def offsetHigh : UInt16 := 0x26
def gainLow : UInt16 := 0x27
def gainHigh : UInt16 := 0x28
def filterConfig : UInt16 := 0x29

/-- The last register of the documented map. -/
def last : UInt16 := filterConfig

/-- The value of `interfaceConfigA` that resets the converter. -/
def softReset : UInt8 := 0x81

/-- The product number of the converter. -/
def productId : UInt16 := 0x0050

/-- The flag of `deviceStatus` that the FIFO holds a watermark's worth of samples. -/
def fifoFull : UInt8 := 0x80

end Register

/-- A field inside one register. -/
structure Field where
  address : UInt16
  /-- The place of the lowest bit. -/
  offset : UInt8
  /-- The number of bits. -/
  width : Nat
deriving DecidableEq, Repr

namespace Field

/-- The bits of the register that belong to the field. -/
def mask (f : Field) : UInt8 := UInt8.ofNat (1 <<< f.width - 1) <<< f.offset

/-- The field's value in a register byte. -/
def get (f : Field) (byte : UInt8) : UInt8 := (byte &&& f.mask) >>> f.offset

/-- The register byte with the field set to `value` and all other bits kept. -/
def put (f : Field) (value byte : UInt8) : UInt8 :=
  (byte &&& ~~~f.mask) ||| ((value <<< f.offset) &&& f.mask)

def fifoMode : Field := ⟨Register.generalConfig, 0, 2⟩
def filterSelect : Field := ⟨Register.filterConfig, 0, 2⟩
def sincDecimation : Field := ⟨Register.filterConfig, 3, 4⟩
def operatingMode : Field := ⟨Register.deviceConfig, 0, 2⟩

end Field

/-- A field of two registers in a row, the low byte first. -/
structure WideField where
  /-- The register of the low byte. -/
  low : UInt16
  /-- The number of bits. -/
  width : Nat
deriving DecidableEq, Repr

namespace WideField

/-- The register of the high byte. -/
def high (f : WideField) : UInt16 := f.low + 1

def mask (f : WideField) : UInt16 := UInt16.ofNat (1 <<< f.width - 1)

/-- The field's value in its two register bytes. -/
def join (f : WideField) (high low : UInt8) : UInt16 :=
  ((high.toUInt16 <<< 8) ||| low.toUInt16) &&& f.mask

/-- The low byte that stores a value. -/
def lowByte (f : WideField) (value : UInt16) : UInt8 := (value &&& f.mask).toUInt8

/-- The high byte that stores a value; bits above the field are cleared. -/
def highByte (f : WideField) (value : UInt16) : UInt8 := ((value &&& f.mask) >>> 8).toUInt8

/-- The least code of the field read as two's complement. -/
def minSigned (f : WideField) : Int := -((1 <<< (f.width - 1) : Nat) : Int)

/-- The largest code of the field read as two's complement. -/
def maxSigned (f : WideField) : Int := ((1 <<< (f.width - 1) : Nat) : Int) - 1

/-- A field value read as two's complement. -/
def toSigned (f : WideField) (value : UInt16) : Int :=
  if value.toNat < 1 <<< (f.width - 1) then value.toNat else value.toNat - (1 <<< f.width : Nat)

/-- The word of a code in two's complement. -/
def ofSigned (code : Int) : UInt16 := UInt16.ofNat (code % 0x1_0000).toNat

def productId : WideField := ⟨Register.productIdLow, 16⟩
def watermark : WideField := ⟨Register.watermarkLow, 15⟩
def hysteresis : WideField := ⟨Register.hysteresisLow, 10⟩
def highThreshold : WideField := ⟨Register.highThresholdLow, 12⟩
def lowThreshold : WideField := ⟨Register.lowThresholdLow, 12⟩
def offset : WideField := ⟨Register.offsetLow, 12⟩

end WideField

end AdcCapture
