/-
  What happens on a board, as a record of events, and the text of each event.
-/
import AdcCapture.Board.Message

namespace AdcCapture

/-- A point at which calls are run inside another call. -/
inductive NestingPoint where
  /-- Inside an interrupt, while the FIFO is full. -/
  | consumer
  /-- After a capture was armed and before the wait for it. -/
  | afterArm
  /-- After the wait and before the capture is closed. -/
  | afterWait
deriving DecidableEq, Repr

def NestingPoint.name : NestingPoint → String
  | consumer => "consumer"
  | afterArm => "after_arm"
  | afterWait => "after_wait"

/-- An event on the board. The two lines of the serial bus have events of their own; an access
over it is seen as the bytes that went over the wire. -/
inductive Event where
  | read (address : UInt16) (result : Except BusFault UInt8)
  | write (address : UInt16) (value : UInt8) (result : Except BusFault Unit)
  | readData (bytes : Nat) (result : Except BusFault Unit)
  /-- A transfer on the configuration line: the bytes sent and those received. -/
  | transfer (sent : List UInt8) (result : Except BusFault (List UInt8))
  /-- A transfer on the data line. -/
  | stream (bytes : Nat) (result : Except BusFault Unit)
  /-- A platform call with the interrupt number that was passed to it, if it takes one. -/
  | platform (call : PlatformCall) (irq : Option UInt32) (succeeded : Bool)
  | sinkWrite (bytes : Nat) (taken : Bool)
  | enter (point : NestingPoint)
  | leave (point : NestingPoint)
  | log (message : Message)

namespace Event

def hexByte (b : UInt8) : String := hexadecimal 2 b.toNat

def hexBytes (bs : List UInt8) : String := String.join (bs.map hexByte)

/-- A mark after the text of something that failed. -/
def mark (succeeded : Bool) : String := if succeeded then "" else " !"

def succeeded {α : Type} : Except BusFault α → Bool
  | .ok _ => true
  | .error _ => false

/-- A platform call with its operands. -/
def platformText (call : PlatformCall) (irq : Option UInt32) : String :=
  match irq with
  | none => call.name
  | some irq => s!"{call.name} {irq.toNat}" ++ if call = .irqTrigger then " High" else ""

def text : Event → String
  | read a (.ok v) => "r " ++ hexadecimal 4 a.toNat ++ " " ++ hexByte v
  | read a (.error _) => "r " ++ hexadecimal 4 a.toNat ++ " !"
  | write a v r => "w " ++ hexadecimal 4 a.toNat ++ " " ++ hexByte v ++ mark (succeeded r)
  | readData n r => s!"data {n}" ++ mark (succeeded r)
  | transfer sent (.ok []) => "cfg w" ++ hexBytes sent
  | transfer sent (.ok received) => "cfg w" ++ hexBytes sent ++ " r" ++ hexBytes received
  | transfer sent (.error _) => "cfg w" ++ hexBytes sent ++ " !"
  | stream n r => s!"dat r{n}" ++ mark (succeeded r)
  | platform call irq ok => platformText call irq ++ mark ok
  | sinkWrite n ok => s!"sink {n}" ++ mark ok
  | enter p => "> " ++ p.name
  | leave p => "< " ++ p.name
  | log m => "log " ++ m.level.name ++ " " ++ m.text

def isLog : Event → Bool
  | log _ => true
  | _ => false

end Event

end AdcCapture
