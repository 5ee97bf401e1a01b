/-
  Scripts on a driver and its sinks. A step that captures carries the steps that come in at the
  two interrupt points of the capture.
-/
import AdcCapture.Attribute.Access
import AdcCapture.Driver.Submit
import AdcCapture.Script.Fifo
import AdcCapture.Sink.Destination

namespace AdcCapture

/-- What a driver shows after a step. -/
structure DriverView where
  watermark : Nat
  pending : Bool
  captureTimeout : UInt32
deriving DecidableEq, Repr

def Driver.view (d : Driver) : DriverView where
  watermark := d.watermark
  pending := d.pending
  captureTimeout := d.captureTimeout

/-- Sinks by name. -/
abbrev Sinks := List (String × Destination)

namespace Sinks

/-- The sink of a name; an unknown name stands for a store without room. -/
def find (name : String) (s : Sinks) : Destination :=
  (s.lookup name).getD (.store { capacity := 0 })

/-- Puts another sink in the place of the one with that name. -/
def replace (name : String) (d : Destination) (s : Sinks) : Sinks :=
  s.map fun e => if e.1 = name then (e.1, d) else e

end Sinks

inductive DriverStep where
  | board (s : BoardStep)
  | converter (s : ConverterStep)
  /-- Starts a driver where there is none. -/
  | init (c : Config)
  | onInterrupt
  | capture (afterArm afterWait : List DriverStep)
  | setWatermark (samples : Nat)
  | setTimeout (polls : UInt32)
  | readDocumented (address : UInt16)
  | writeDocumented (address : UInt16) (value : UInt8)
  | samples (start : Nat) (count : Option Nat)
  | submit (samples : Nat) (sink : String) (afterArm afterWait : List DriverStep)
  | fillSink (sink : String) (data : List UInt8)
  | drainSink (sink : String) (max : Nat)
  | showAttribute (index : Nat) (room : Option Nat) (afterArm afterWait : List DriverStep)
  | storeAttribute (index : Nat) (input : String)
  | channels

/-- The reply to a step: its answer, the replies of the steps at the interrupt points that were
reached, the bytes held and free of the sink of a submission, and the driver after the step. -/
inductive DriverReply where
  | mk (answer : Answer) (afterArm afterWait : Option (List DriverReply))
      (sink : Option (Nat × Nat)) (view : Option DriverView)

/-- A driver and the sinks it can write to. -/
structure Bench where
  driver : Driver
  sinks : Sinks

/-- A bench during a capture, and the replies of the interrupt points reached so far. -/
structure Capturing where
  bench : Bench
  afterArm : Option (List DriverReply) := none
  afterWait : Option (List DriverReply) := none

namespace Capturing

def driverPart : Part Capturing Driver where
  get c := c.bench.driver
  set d c := { c with bench := { c.bench with driver := d } }

def sinkPart (name : String) : Part Capturing Destination where
  get c := Sinks.find name c.bench.sinks
  set d c := { c with bench := { c.bench with sinks := Sinks.replace name d c.bench.sinks } }

end Capturing

namespace DriverStep

/-- Puts a mark into the record of the board. -/
def mark (e : Event) (t : Bench) : Bench :=
  { t with driver := { t.driver with fifo := FifoStep.markEvent e t.driver.fifo } }

/-- Runs steps between the two marks of an interrupt point. -/
def between (p : NestingPoint) (body : Bench → List DriverReply × Bench) (t : Bench) :
    List DriverReply × Bench :=
  match body (mark (.enter p) t) with
  | (rs, t) => (rs, mark (.leave p) t)

/-- The interrupt points of a capture, with what runs at each. -/
def interruptsOf (afterArm afterWait : Bench → List DriverReply × Bench) :
    Interrupts Capturing where
  afterArm c :=
    match between .afterArm afterArm c.bench with
    | (rs, t) => { c with bench := t, afterArm := some rs }
  afterWait c :=
    match between .afterWait afterWait c.bench with
    | (rs, t) => { c with bench := t, afterWait := some rs }

/-- Makes a call that may capture. -/
def callCapturing {α : Type} (f : α → Value) (c : Call Capturing α) (sink : Option String)
    (t : Bench) : DriverReply × Bench :=
  match c { bench := t } with
  | (o, c) =>
    let room := sink.map fun name =>
      let d := Sinks.find name c.bench.sinks
      (d.size, d.free)
    (.mk (.ofOutcome f o) c.afterArm c.afterWait room (some c.bench.driver.view), c.bench)

/-- A reply without interrupt points. -/
def reply (a : Answer) (t : Bench) : DriverReply × Bench :=
  (.mk a none none none (some t.driver.view), t)

def call {α : Type} (f : α → Value) (c : Call Driver α) (t : Bench) : DriverReply × Bench :=
  match c t.driver with
  | (o, d) => reply (.ofOutcome f o) { t with driver := d }

def onBoard (run : Board → Answer × Board) (t : Bench) : DriverReply × Bench :=
  match run t.driver.fifo.board with
  | (a, b) =>
    reply a { t with driver := { t.driver with fifo := { t.driver.fifo with board := b } } }

def interrupt (t : Bench) : DriverReply × Bench :=
  match Driver.onInterrupt t.driver with
  | (o, d) => reply (.ofSure o) { t with driver := d }

/-- Puts bytes into a sink from outside. -/
def fill (name : String) (data : List UInt8) (sinks : Sinks) : Answer × Sinks :=
  match (Sinks.find name sinks).fill data with
  | (ok, d) => (if ok then .unit else .sinkFull, Sinks.replace name d sinks)

/-- Takes bytes out of a sink from outside. -/
def drain (name : String) (max : Nat) (sinks : Sinks) : Answer × Sinks :=
  match (Sinks.find name sinks).drain max with
  | (bs, d) => (.value (.counted bs), Sinks.replace name d sinks)

/-- Sets whether the memory limit of the script is waived. -/
def waiveLimit (on : Bool) (t : Bench) : Bench :=
  let f := t.driver.fifo
  { t with driver := { t.driver with fifo := { f with board := { f.board with
      allocator := { f.board.allocator with waived := on } } } } }

def onSinks (run : Sinks → Answer × Sinks) (t : Bench) : DriverReply × Bench :=
  match run t.sinks with
  | (a, s) => reply a { t with sinks := s }

mutual

def run : DriverStep → Bench → DriverReply × Bench
  | board s, t => onBoard s.run t
  | converter s, t => onBoard s.run t
  | init _, t => reply .alreadyInitialised t
  | onInterrupt, t => interrupt t
  | capture afterArm afterWait, t =>
    callCapturing (fun _ => .unit)
      (Driver.captureOn Capturing.driverPart
        (interruptsOf (fun t => runAll afterArm t) (fun t => runAll afterWait t)))
      none t
  | setWatermark n, t => call (fun _ => .unit) (Driver.setWatermark n) t
  | setTimeout n, t => reply .unit { t with driver := t.driver.setCaptureTimeout n }
  | readDocumented a, t => call ConverterStep.byte (Driver.readDocumented a) t
  | writeDocumented a v, t => call (fun _ => .unit) (Driver.writeDocumented a v) t
  | samples start count, t => reply (.value (sampleWindow t.driver.samples start count)) t
  -- The memory limit is for the steps that set a watermark; a submission resizes without it.
  | submit n sink afterArm afterWait, t =>
    match callCapturing (fun _ => .unit)
      (Driver.submitOn Capturing.driverPart (Capturing.sinkPart sink)
        (interruptsOf (fun t => runAll afterArm t) (fun t => runAll afterWait t)) n)
      (some sink) (waiveLimit true t) with
    | (r, t) => (r, waiveLimit false t)
  | fillSink name data, t => onSinks (fill name data) t
  | drainSink name max, t => onSinks (drain name max) t
  | showAttribute index room afterArm afterWait, t =>
    callCapturing .name
      (Driver.showAttributeOn Capturing.driverPart
        (interruptsOf (fun t => runAll afterArm t) (fun t => runAll afterWait t)) index room)
      none t
  | storeAttribute index input, t => call (fun _ => .unit) (Driver.storeAttribute index input) t
  | channels, t => reply (.value .channels) t

def runAll : List DriverStep → Bench → List DriverReply × Bench
  | [], t => ([], t)
  | s :: rest, t =>
    match run s t with
    | (r, t) =>
      match runAll rest t with
      | (rs, t) => (r :: rs, t)

end

end DriverStep

/-- A step of a session: on the driver, or its end. -/
inductive DriverSessionStep where
  | step (s : DriverStep)
  /-- Ends the driver and reads the general configuration register over the board's bus. -/
  | fini

/-- A session: a board with sinks, with a driver or without one. -/
inductive DriverSession where
  | stopped (b : Board) (sinks : Sinks)
  | running (t : Bench)

namespace DriverSession

def board : DriverSession → Board
  | stopped b _ => b
  | running t => t.driver.fifo.board

def bare (a : Answer) (b : Board) (sinks : Sinks) : DriverReply × DriverSession :=
  (.mk a none none none none, stopped b sinks)

/-- Runs a step where there is no driver. -/
def runStopped (s : DriverStep) (b : Board) (sinks : Sinks) : DriverReply × DriverSession :=
  match s with
  | .board s => let (a, b) := s.run b; bare a b sinks
  | .fillSink name data => let (a, sinks) := DriverStep.fill name data sinks; bare a b sinks
  | .drainSink name max => let (a, sinks) := DriverStep.drain name max sinks; bare a b sinks
  | .init c =>
    match Driver.init c b with
    | (.ok d, _) => (.mk .unit none none none (some d.view), running ⟨d, sinks⟩)
    | (.error e, b) => bare (.failure e) b sinks
    | (.fault x, b) => bare (.fault x) b sinks
  | _ => bare .noDriver b sinks

/-- Ends the driver of a bench. -/
def stop (t : Bench) : DriverReply × DriverSession :=
  match t.driver.fini with
  | (.fault x, b) => bare (.fault x) b t.sinks
  | (.ok _, b) =>
    match ConverterStep.busCall ConverterStep.byte (Board.readRegister Register.generalConfig) b
    with
    | (a, b) => bare a b t.sinks

def run : DriverSessionStep → DriverSession → DriverReply × DriverSession
  | .step s, stopped b sinks => runStopped s b sinks
  | .fini, stopped b sinks => bare .noDriver b sinks
  | .step s, running t =>
    match s.run t with
    | (r, t) => (r, running t)
  | .fini, running t => stop t

def clearRecord : DriverSession → DriverSession
  | stopped b sinks => stopped { b with record := [] } sinks
  | running t => running { t with driver := { t.driver with fifo := { t.driver.fifo with
      board := { t.driver.fifo.board with record := [] } } } }

/-- Runs the steps of a session in order; with each reply comes what happened during the step. -/
def runAll : List DriverSessionStep → DriverSession → List (DriverReply × List Event)
  | [], _ => []
  | s :: rest, t =>
    match run s t.clearRecord with
    | (r, t) => (r, t.board.record.reverse) :: runAll rest t

end DriverSession

end AdcCapture
