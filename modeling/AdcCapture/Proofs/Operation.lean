/-
  Runs of a driver. An operation is a call on the driver, a typed call to its converter, or a
  change from outside: of the board, or of a sink. The operations that capture carry the
  operations that come in at the two interrupt points of the capture, so a run is a list of
  trees. A scene is a driver among its sinks, with a journal: every state that the driver has
  between two of its critical sections, and every operation that came to its end, with the driver
  before and after it.
-/
import AdcCapture.Attribute.Access
import AdcCapture.Driver.Submit
import AdcCapture.Proofs.BoardCalls

namespace AdcCapture

/-- A change of the board that no call makes: of what its registers and its FIFO hold, of what
fails on it, of what its allocator grants. It does not change what happened before. -/
structure Disturbance where
  change : Board → Board
  record_eq : ∀ b, (change b).record = b.record

/-- Something that happens to a driver that is running, with sinks of the type `δ`. -/
inductive Operation (δ : Type) where
  | disturb (x : Disturbance)
  | changeSink (i : Nat) (f : δ → δ)
  | converter (s : ConverterStep)
  | interrupt
  | capture (afterArm afterWait : List (Operation δ))
  | submit (samples sink : Nat) (afterArm afterWait : List (Operation δ))
  | setWatermark (samples : Nat)
  | setTimeout (polls : UInt32)
  | showAttribute (index : Nat) (room : Option Nat) (afterArm afterWait : List (Operation δ))
  | storeAttribute (index : Nat) (input : String)
  | readDocumented (address : UInt16)
  | writeDocumented (address : UInt16) (value : UInt8)

variable {δ : Type}

/-- An entry of the journal. -/
inductive Entry (δ : Type) where
  /-- The driver between two critical sections. -/
  | passed (d : Driver)
  | ended (op : Operation δ) (before after : Driver) (outcome : Outcome Cause Unit)

/-- The states of the driver that an entry shows. -/
def Entry.drivers : Entry δ → List Driver
  | passed d => [d]
  | ended _ before after _ => [before, after]

/-- The assertion that an operation broke, if it broke one. -/
def Entry.fault? : Entry δ → Option Fault
  | ended _ _ _ (.fault b) => some b
  | _ => none

structure Scene (δ : Type) where
  driver : Driver
  sinks : Nat → δ
  /-- What happened, the latest first. -/
  journal : List (Entry δ) := []

namespace Scene

/-- The scene with its driver in another state, which goes into the journal. -/
def pass (d : Driver) (s : Scene δ) : Scene δ :=
  { s with driver := d, journal := .passed d :: s.journal }

/-- The driver of a scene. A critical section on it leaves its result in the journal. -/
def driverPart : Part (Scene δ) Driver where
  get s := s.driver
  set := pass

def boardPart : Part (Scene δ) Board := driverPart.andThen Driver.boardPart

/-- One of the sinks. -/
def sinkPart (i : Nat) : Part (Scene δ) δ where
  get s := s.sinks i
  set x s := { s with sinks := fun j => if j = i then x else s.sinks j }

/-- A driver that has just been started. -/
def start (d : Driver) (sinks : Nat → δ) : Scene δ where
  driver := d
  sinks
  journal := [.passed d]

/-- Puts the end of an operation into the journal. -/
def note (op : Operation δ) (before : Driver) : Outcome Cause Unit × Scene δ → Scene δ
  | (o, s) => { s with journal := .ended op before s.driver o :: s.journal }

end Scene

namespace Operation

variable [Sink δ]

mutual

/-- What an operation does to a scene. -/
def call : Operation δ → Call (Scene δ) Unit
  | disturb x => Action.within Scene.boardPart (.update x.change)
  | changeSink i f => Action.within (Scene.sinkPart i) (.update f)
  | converter s => Action.within Scene.boardPart (Answer.asCall s.run)
  | interrupt => (Action.within Scene.driverPart Driver.onInterrupt).mapError Empty.elim
  | capture afterArm afterWait =>
    Driver.captureOn Scene.driverPart ⟨fun s => runAll afterArm s, fun s => runAll afterWait s⟩
  | submit n i afterArm afterWait =>
    Driver.submitOn Scene.driverPart (Scene.sinkPart i)
      ⟨fun s => runAll afterArm s, fun s => runAll afterWait s⟩ n
  | setWatermark n => Action.within Scene.driverPart (Driver.setWatermark n)
  | setTimeout polls => Action.within Scene.driverPart (.update (Driver.setCaptureTimeout polls))
  | showAttribute index room afterArm afterWait => do
    let _ ← Driver.showAttributeOn Scene.driverPart
      ⟨fun s => runAll afterArm s, fun s => runAll afterWait s⟩ index room
    return ()
  | storeAttribute index input =>
    Action.within Scene.driverPart (Driver.storeAttribute index input)
  | readDocumented a => do
    let _ ← Action.within Scene.driverPart (Driver.readDocumented a)
    return ()
  | writeDocumented a v => Action.within Scene.driverPart (Driver.writeDocumented a v)

/-- Runs operations in order. -/
def runAll : List (Operation δ) → Scene δ → Scene δ
  | [], s => s
  | op :: rest, s => runAll rest (Scene.note op s.driver (call op s))

end

/-- Operations that come in at the two interrupt points of a capture. -/
abbrev during (afterArm afterWait : List (Operation δ)) : Interrupts (Scene δ) :=
  ⟨fun s => runAll afterArm s, fun s => runAll afterWait s⟩

end Operation

/-- A driver as some run leaves it at a point between its critical sections. -/
def Driver.Reachable (d : Driver) : Prop :=
  ∃ (δ : Type) (_ : Sink δ) (c : Config) (b : Board) (d₀ : Driver) (sinks : Nat → δ)
    (ops : List (Operation δ)), (Driver.init c b).1 = .ok d₀ ∧
      Entry.passed d ∈ (Operation.runAll ops (Scene.start d₀ sinks)).journal

end AdcCapture
