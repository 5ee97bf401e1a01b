/-
  Scripts on a ring, and writes to any sink.
-/
import AdcCapture.Sink.Destination

namespace AdcCapture

inductive RingStep where
  | push (data : List UInt8)
  | pop (max : Nat)
  /-- Asks for the capacity and for the free space, and changes nothing. -/
  | measure
deriving DecidableEq, Repr

/-- How a step on a ring ended. -/
inductive RingAnswer where
  | pushed
  /-- The block did not fit. -/
  | full
  | popped (data : List UInt8)
  | measured (capacity free : Nat)
deriving DecidableEq, Repr

namespace RingStep

def run (s : RingStep) (r : Ring) : RingAnswer × Ring :=
  match s with
  | push data =>
    match r.offer data with
    | (true, r) => (.pushed, r)
    | (false, r) => (.full, r)
  | pop max =>
    match r.take max with
    | (data, r) => (.popped data, r)
  | measure => (.measured (Sink.capacity r) (Sink.free r), r)

/-- Runs steps in order; with each answer comes the ring after the step. -/
def runAll : List RingStep → Ring → List (RingAnswer × Ring)
  | [], _ => []
  | s :: rest, r =>
    match s.run r with
    | (a, r) => (a, r) :: runAll rest r

end RingStep

/-- Writes blocks in order, also after one that was refused; with each block comes whether it was
taken, and the sink after it. -/
def Sink.writeAll {δ : Type} [Sink δ] : List (List UInt8) → δ → List (Bool × δ)
  | [], _ => []
  | block :: rest, d =>
    match Sink.write block d with
    | (taken, d) => (taken, d) :: writeAll rest d

end AdcCapture
