/-
  The attributes of the driver: nineteen named values, addressed by a fixed index, that travel as
  text; and the description of the one channel that some of them belong to.
-/
import AdcCapture.Converter.Setting
import AdcCapture.Sample

namespace AdcCapture

inductive Attribute where
  /-- A sample, captured when the attribute is shown. -/
  | raw
  /-- Millivolts per code of a sample. -/
  | scale
  | offset
  | outputEnable (pin : Pin)
  | function (pin : Pin)
  | fifoMode
  | fifoWatermark
  | hysteresis
  | threshold (which : Threshold)
  | filterSelect
  | sincRate
  | deviceMode
deriving DecidableEq, Repr

namespace Attribute

/-- The attributes of the channel. -/
def ofChannel : List Attribute := [raw, scale, offset]

/-- The attributes of the whole device. -/
def ofDevice : List Attribute :=
  Pin.all.flatMap (fun p => [outputEnable p, function p]) ++
    [fifoMode, fifoWatermark, hysteresis, threshold .high, threshold .low, filterSelect,
      sincRate, deviceMode]

/-- All attributes, in the order of their indices. -/
def all : List Attribute := ofChannel ++ ofDevice

def ofIndex? (i : Nat) : Option Attribute := all[i]?

def index : Attribute → Nat
  | raw => 0
  | scale => 1
  | offset => 2
  | outputEnable p => 3 + 2 * p.index
  | function p => 4 + 2 * p.index
  | fifoMode => 11
  | fifoWatermark => 12
  | hysteresis => 13
  | threshold .high => 14
  | threshold .low => 15
  | filterSelect => 16
  | sincRate => 17
  | deviceMode => 18

/-- The name under which clients know the attribute. -/
def name : Attribute → String
  | raw => "raw"
  | scale => "scale"
  | offset => "offset"
  | outputEnable p => s!"gp{p.index}_output_enable"
  | function p => s!"gp{p.index}_func"
  | fifoMode => "fifo_mode"
  | fifoWatermark => "fifo_watermark"
  | hysteresis => "evt_detection_hysteresis"
  | threshold .high => "evt_detection_high"
  | threshold .low => "evt_detection_low"
  | filterSelect => "filter_select"
  | sincRate => "filter_sinc_dec"
  | deviceMode => "device_mode"

/-- The name of the attribute as an identifier. -/
def identifier : Attribute → String
  | raw => "Raw"
  | scale => "Scale"
  | offset => "Offset"
  | outputEnable p => s!"Gp{p.index}OutputEnable"
  | function p => s!"Gp{p.index}Func"
  | fifoMode => "FifoMode"
  | fifoWatermark => "FifoWatermark"
  | hysteresis => "EvtDetectionHysteresis"
  | threshold .high => "EvtDetectionHigh"
  | threshold .low => "EvtDetectionLow"
  | filterSelect => "FilterSelect"
  | sincRate => "FilterSincDec"
  | deviceMode => "DeviceMode"

def isWritable : Attribute → Bool
  | raw => false
  | scale => false
  | _ => true

end Attribute

/-- How a sample lies in memory. -/
structure ScanType where
  signed : Bool
  /-- Significant bits. -/
  realBits : Nat
  /-- Bits of the whole word. -/
  storageBits : Nat
  shift : Nat
  bigEndian : Bool
deriving DecidableEq, Repr

/-- A channel as it is described to clients. -/
structure Channel where
  kind : String
  channel : Nat
  scanIndex : Nat
  indexed : Bool
  output : Bool
  scanType : ScanType
  attributes : List Attribute

/-- The voltage input. -/
def Channel.voltage : Channel where
  kind := "voltage"
  channel := 0
  scanIndex := 0
  indexed := true
  output := false
  scanType := {
    signed := true
    realBits := Sample.resolution
    storageBits := 8 * Sample.wordBytes
    shift := 0
    bigEndian := false }
  attributes := Attribute.ofChannel

end AdcCapture
