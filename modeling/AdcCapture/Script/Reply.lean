/-
  Replies to the steps of a script, and the steps that act on a board alone: changing what its
  registers and its FIFO hold and what fails on it, and typed calls to its converter.
-/
import AdcCapture.Converter.Basic
import AdcCapture.Board.Platform

namespace AdcCapture

/-- A value that a step gives back. -/
inductive Value where
  | unit
  | number (n : Int)
  | flag (b : Bool)
  | name (s : String)
  | bytes (bs : List UInt8)
  /-- A count and the bytes counted. -/
  | counted (bs : List UInt8)
  /-- A part of the samples, and how many there are in all. -/
  | samples (part : List UInt32) (total : Nat)
  /-- The descriptions of the channels and of the attributes of the device. -/
  | channels
  /-- No value, where there could be one. -/
  | absent

/-- How a step ended. -/
inductive Answer where
  | value (v : Value)
  | failure (cause : Cause)
  | fault (broken : Fault)
  /-- A failure of the bus below the converter calls. -/
  | busFailure (cause : BusFault)
  /-- A code or index that stands for nothing; no call was made. -/
  | noSuchValue
  | sinkFull
  | noFifo
  | noDriver
  | alreadyInitialised

namespace Answer

def unit : Answer := value .unit

/-- The answer for the outcome of a call. -/
def ofOutcome {α : Type} (f : α → Value) : Outcome Cause α → Answer
  | .ok a => value (f a)
  | .error e => failure e
  | .fault b => fault b

/-- The answer for the outcome of a call that cannot fail. -/
def ofSure : Outcome Empty Unit → Answer
  | .ok _ => unit
  | .fault b => fault b

def ofBus {α : Type} (f : α → Value) : Outcome BusFault α → Answer
  | .ok a => value (f a)
  | .error e => busFailure e
  | .fault b => fault b

end Answer

/-- A step that changes or looks at the board from outside. -/
inductive BoardStep where
  | setByte (address : UInt16) (value : UInt8)
  | getByte (address : UInt16)
  /-- An access that fails from now on, each time. -/
  | failAccess (a : Access) (code : UInt32)
  /-- The access after the next `n` fails, in place of any access chosen so before. -/
  | failAfter (n : Nat) (code : UInt32)
  | clearFaults
  | loadFifo (bytes : Array UInt8)
  | fillOnArm (on : Bool)
  | failCall (c : PlatformCall)
  | clearCalls
  | limitMemory (bytes : Option Nat)

namespace BoardStep

def change : BoardStep → Board → Board
  | setByte a v, b => { b with registers := b.registers.set a v }
  | getByte _, b => b
  | failAccess a c, b =>
    { b with faults := { b.faults with standing := b.faults.standing ++ [(a, c)] } }
  | failAfter n c, b =>
    let chosen := b.accesses + n
    { b with faults := { b.faults with
        planned := fun i _ => if i = chosen then some c else none } }
  | clearFaults, b => { b with faults := {} }
  | loadFifo bytes, b => { b with fifo := bytes }
  | fillOnArm on, b => { b with fillOnArm := on }
  | failCall c, b => { b with refuses := fun i d => d = c || b.refuses i d }
  | clearCalls, b => { b with refuses := fun _ _ => false }
  | limitMemory limit, b =>
    { b with allocator := { b.allocator with grants := Allocator.limited limit } }

def run (s : BoardStep) (b : Board) : Answer × Board :=
  match s with
  | getByte a => (.value (.number (b.registers.get a).toNat), b)
  | _ => (.unit, s.change b)

end BoardStep

/-- A typed call to the converter. Codes and indices are those of the caller. -/
inductive ConverterStep where
  | init
  | productId
  | read (address : UInt16)
  | write (address : UInt16) (value : UInt8)
  | readDocumented (address : UInt16)
  | writeDocumented (address : UInt16) (value : UInt8)
  | fifoMode
  | setFifoMode (code : UInt8)
  | watermark
  | setWatermark (samples : UInt16)
  | status
  | fifoFull
  | readData (bytes : Nat)
  | pinDirection (pin : Nat)
  | setPinDirection (pin : Nat) (d : PinDirection)
  | pinFunctionCode (pin : Nat)
  | pinFunction (pin : Nat)
  | setPinFunction (pin : Nat) (code : UInt8)
  | offset
  | setOffset (code : Int)
  | hysteresis
  | setHysteresis (code : UInt16)
  | threshold (which : Threshold)
  | setThreshold (which : Threshold) (code : Int)
  | filter
  | setFilter (code : UInt8)
  | sincRateCode
  | setSincRate (code : UInt8)
  | operatingModeBits
  | operatingMode
  | setOperatingMode (code : UInt8)
  /-- An access to the bus below the typed calls. -/
  | busRead (address : UInt16)
  | busWrite (address : UInt16) (value : UInt8)

namespace ConverterStep

/-- Makes a call and gives its answer. -/
def call {α : Type} (f : α → Value) (c : Call Board α) (b : Board) : Answer × Board :=
  match c b with
  | (o, b) => (.ofOutcome f o, b)

def busCall {α : Type} (f : α → Value) (c : Action Board BusFault α) (b : Board) :
    Answer × Board :=
  match c b with
  | (o, b) => (.ofBus f o, b)

def byte (v : UInt8) : Value := .number v.toNat

def word (v : UInt16) : Value := .number v.toNat

def done (_ : Unit) : Value := .unit

/-- Makes a call on what a code or an index stands for. -/
def callWith {α β : Type} (f : α → Value) (c : β → Call Board α) (x : Option β) (b : Board) :
    Answer × Board :=
  match x with
  | some x => call f (c x) b
  | none => (.noSuchValue, b)

def run : ConverterStep → Board → Answer × Board
  | init => call done Converter.init
  | productId => call word Converter.productId
  | read a => call byte (Converter.read a)
  | write a v => call done (Converter.write a v)
  | readDocumented a => call byte (Converter.readDocumented a)
  | writeDocumented a v => call done (Converter.writeDocumented a v)
  | fifoMode => call (fun m => .name m.name) Converter.fifoMode
  | setFifoMode c => call done (Converter.setFifoMode (.ofBits c))
  | watermark => call word Converter.watermark
  | setWatermark w => call done (Converter.setWatermark w)
  | status => call byte Converter.status
  | fifoFull => call .flag Converter.fifoFull
  | readData n => call (fun bs => .bytes bs.toList) (Converter.readData n)
  | pinDirection i => callWith (fun d => .name d.name) Converter.pinDirection (Pin.ofIndex? i)
  | setPinDirection i d =>
    callWith done (fun p => Converter.setPinDirection p d) (Pin.ofIndex? i)
  | pinFunctionCode i => callWith byte Converter.pinFunctionCode (Pin.ofIndex? i)
  | pinFunction i =>
    callWith (fun f => f.elim .absent fun f => .name f.name) Converter.pinFunction (Pin.ofIndex? i)
  | setPinFunction i c =>
    callWith done (fun (p, f) => Converter.setPinFunction p f)
      ((Pin.ofIndex? i).bind fun p => (PinFunction.ofCode? c).map fun f => (p, f))
  | offset => call .number Converter.offset
  | setOffset c => call done (Converter.setOffset c)
  | hysteresis => call word Converter.hysteresis
  | setHysteresis c => call done (Converter.setHysteresis c)
  | threshold t => call .number (Converter.threshold t)
  | setThreshold t c => call done (Converter.setThreshold t c)
  | filter => call (fun f => .name f.name) Converter.filter
  | setFilter c => call done (Converter.setFilter (.ofBits c))
  | sincRateCode => call byte Converter.sincRateCode
  | setSincRate c => callWith done Converter.setSincRate (SincRate.ofCode? c)
  | operatingModeBits => call byte Converter.operatingModeBits
  | operatingMode => call (fun m => m.elim .absent fun m => .name m.name) Converter.operatingMode
  | setOperatingMode c => callWith done Converter.setOperatingMode (OperatingMode.ofBits? c)
  | busRead a => busCall byte (Board.readRegister a)
  | busWrite a v => busCall done (Board.writeRegister a v)

end ConverterStep

/-- A step of a script on a board alone. -/
inductive DeviceStep where
  | board (s : BoardStep)
  | converter (s : ConverterStep)

namespace DeviceStep

def run : DeviceStep → Board → Answer × Board
  | board s => s.run
  | converter s => s.run

/-- Runs the steps in order; with each answer comes what happened during the step. -/
def runAll : List DeviceStep → Board → List (Answer × List Event)
  | [], _ => []
  | s :: rest, b =>
    match s.run { b with record := [] } with
    | (a, b) => (a, b.record.reverse) :: runAll rest b

end DeviceStep

end AdcCapture
