/-
  A board: the converter with its registers and its FIFO, the two buses it can hang on, the
  platform around it, the allocator, and a record of everything that happened. Which accesses and
  calls fail is part of the board, so statements can range over all such schedules.
-/
import AdcCapture.Board.Event
import AdcCapture.Board.Allocator

namespace AdcCapture

/-- The converter's registers: 128 of one byte each. -/
structure RegisterFile where
  bytes : Vector UInt8 128

namespace RegisterFile

def empty : RegisterFile := ⟨Vector.replicate 128 0⟩

/-- The byte at an address; beyond the last register there is only zero. -/
def get (r : RegisterFile) (a : UInt16) : UInt8 :=
  if h : a.toNat < 128 then r.bytes[a.toNat] else 0

/-- Stores a byte; beyond the last register it is dropped. -/
def set (r : RegisterFile) (a : UInt16) (v : UInt8) : RegisterFile :=
  if h : a.toNat < 128 then ⟨r.bytes.set a.toNat v⟩ else r

theorem get_set_self (r : RegisterFile) {a : UInt16} (v : UInt8) (h : a.toNat < 128) :
    (r.set a v).get a = v := by
  simp [get, set, h]

theorem get_set_of_ne (r : RegisterFile) {a b : UInt16} (v : UInt8) (h : a ≠ b) :
    (r.set a v).get b = r.get b := by
  have hn : a.toNat ≠ b.toNat := fun e => h (UInt16.toNat_inj.mp e)
  by_cases ha : a.toNat < 128 <;> by_cases hb : b.toNat < 128 <;>
    simp [get, set, ha, hb, hn]

end RegisterFile

/-- How the converter is wired: registers addressed directly, or over a serial bus with one line
for configuration and one for data. -/
inductive Transport where
  | direct | serial
deriving DecidableEq, Repr

/-- An access to the converter. -/
inductive Access where
  | read (address : UInt16)
  | write (address : UInt16)
  | data
deriving DecidableEq, Repr

/-- Which accesses fail, and with which code. -/
structure Faults where
  /-- The code of an access by the number of accesses before it. -/
  planned : Nat → Access → Option UInt32 := fun _ _ => none
  /-- Accesses that fail whenever they are made; the first entry counts. -/
  standing : List (Access × UInt32) := []

/-- The code with which an access fails, if it does. What is planned for it comes first. -/
def Faults.code? (f : Faults) (before : Nat) (a : Access) : Option UInt32 :=
  (f.planned before a).or (f.standing.lookup a)

structure Board where
  registers : RegisterFile := .empty
  /-- What a read of the FIFO is served from. -/
  fifo : Array UInt8 := #[]
  /-- Whether the FIFO counts as full exactly while its mode is not disabled. -/
  fillOnArm : Bool := false
  transport : Transport := .direct
  faults : Faults := {}
  /-- The number of bus accesses made. -/
  accesses : Nat := 0
  /-- The interrupt number of the input line. -/
  irq : UInt32 := 7
  /-- Whether a platform call fails, by the number of calls before it. -/
  refuses : Nat → PlatformCall → Bool := fun _ _ => false
  /-- The number of platform calls made. -/
  calls : Nat := 0
  allocator : Allocator := default
  /-- What happened, the latest first. -/
  record : List Event := []

namespace Board

/-- The allocator of a board. -/
def allocation : Part Board Allocator where
  get b := b.allocator
  set a b := { b with allocator := a }

/-- Adds an event to the record. -/
def note {ε : Type} (e : Event) : Action Board ε Unit :=
  .update fun b => { b with record := e :: b.record }

def log {ε : Type} (m : Message) : Action Board ε Unit := note (.log m)

/-- The byte that a read of a register finds. With `fillOnArm` the full flag of the status
register follows the FIFO mode. -/
def visible (b : Board) (a : UInt16) : UInt8 :=
  let stored := b.registers.get a
  if a = Register.deviceStatus && b.fillOnArm then
    if Field.fifoMode.get (b.registers.get Register.generalConfig) = 0 then
      stored &&& ~~~Register.fifoFull
    else stored ||| Register.fifoFull
  else stored

/-- The first bytes of the FIFO, filled up with zeros. -/
def served (b : Board) (bytes : Nat) : Array UInt8 :=
  Array.ofFn fun i : Fin bytes => b.fifo.getD i 0

/-- Counts an access and lets the schedule decide whether it fails. -/
def countAccess (a : Access) : Action Board UInt32 Unit := fun b =>
  let next := { b with accesses := b.accesses + 1 }
  match b.faults.code? b.accesses a with
  | some code => (.error code, next)
  | none => (.ok (), next)

/-- Reads a register of the converter. -/
def peek (a : UInt16) : Action Board UInt32 UInt8 := do
  countAccess (.read a)
  return (← Action.state).visible a

/-- Writes a register of the converter; a failed write changes nothing. -/
def poke (a : UInt16) (v : UInt8) : Action Board UInt32 Unit := do
  countAccess (.write a)
  Action.update fun b => { b with registers := b.registers.set a v }

/-- Reads from the start of the FIFO. -/
def serve (bytes : Nat) : Action Board UInt32 (Array UInt8) := do
  countAccess .data
  return (← Action.state).served bytes

end Board

end AdcCapture
