/-
  Register access over either bus. The serial bus sends a 16-bit instruction, the top bit set for
  a read and fifteen address bits below it; the converter decodes it at the other end.
-/
import AdcCapture.Board.Basic

namespace AdcCapture

/-- The first word of a serial configuration transfer. -/
structure Instruction where
  isRead : Bool
  address : UInt16
deriving DecidableEq, Repr

namespace Instruction

/-- The address bits of an instruction. -/
def addressMask : UInt16 := 0x7FFF

/-- The bit of the first byte that marks a read. -/
def readFlag : UInt8 := 0x80

def encode (i : Instruction) : List UInt8 :=
  let a := i.address &&& addressMask
  let high := (a >>> 8).toUInt8
  [if i.isRead then high ||| readFlag else high, a.toUInt8]

def decode (high low : UInt8) : Instruction where
  isRead := high &&& readFlag ≠ 0
  address := ((high.toUInt16 <<< 8) ||| low.toUInt16) &&& addressMask

end Instruction

namespace Board

/-- Makes an access, keeps a note of it, and gives the failure its kind. -/
def traced {α : Type} (kind : UInt32 → BusFault) (event : Except BusFault α → Event)
    (a : Action Board UInt32 α) : Action Board BusFault α := do
  let r ← Action.attempt (a.mapError kind)
  note (event r)
  Action.ofExcept r

/-- What the converter does with the bytes of a configuration transfer. -/
def answer : List UInt8 → Action Board UInt32 (List UInt8)
  | high :: low :: rest =>
    let i := Instruction.decode high low
    if i.isRead then do return [← peek i.address]
    else
      match rest with
      | value :: _ => do poke i.address value; return []
      | [] => return []
  | _ => return []

/-- A transfer on the configuration line. -/
def transfer (sent : List UInt8) : Action Board BusFault (List UInt8) :=
  traced (fun c => .serial (.ofCode c)) (.transfer sent) (answer sent)

/-- Reads a register over the board's bus. -/
def readRegister (a : UInt16) : Action Board BusFault UInt8 := do
  match (← Action.state).transport with
  | .direct => traced .code (.read a) (peek a)
  | .serial => return (← transfer (Instruction.encode ⟨true, a⟩)).headD 0

/-- Writes a register over the board's bus. -/
def writeRegister (a : UInt16) (v : UInt8) : Action Board BusFault Unit := do
  match (← Action.state).transport with
  | .direct => traced .code (.write a v) (poke a v)
  | .serial => do
    let _ ← transfer (Instruction.encode ⟨false, a⟩ ++ [v])
    return ()

/-- Reads bytes of the FIFO over the board's bus. -/
def readData (bytes : Nat) : Action Board BusFault (Array UInt8) := do
  match (← Action.state).transport with
  | .direct => traced .code (fun r => .readData bytes (r.map fun _ => ())) (serve bytes)
  | .serial =>
    traced (fun c => .serial (.ofCode c)) (fun r => .stream bytes (r.map fun _ => ()))
      (serve bytes)

end Board

end AdcCapture
