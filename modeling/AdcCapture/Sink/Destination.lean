/-
  The sinks a script can name: a ring, or a store that says what it likes about its free space
  and can refuse a chosen write.
-/
import AdcCapture.Sink.Ring

namespace AdcCapture

/-- A sink that keeps what is written to it. -/
structure Store where
  capacity : Nat
  /-- What the store says about its free space, if not the truth. -/
  claimedFree : Option Nat := none
  /-- The number of the write that is refused whatever it brings. -/
  refusedWrite : Option Nat := none
  contents : List UInt8 := []
  /-- The number of writes so far, the refused ones counted. -/
  writes : Nat := 0
deriving DecidableEq, Repr

namespace Store

def free (s : Store) : Nat := s.claimedFree.getD (s.capacity - s.contents.length)

def write (data : List UInt8) (s : Store) : Bool × Store :=
  let next := { s with writes := s.writes + 1 }
  if s.refusedWrite = some s.writes || s.capacity < s.contents.length + data.length then
    (false, next)
  else (true, { next with contents := s.contents ++ data })

instance : Sink Store where
  capacity := capacity
  free := free
  write := write

end Store

inductive Destination where
  | ring (r : Ring)
  | store (s : Store)

namespace Destination

def capacity : Destination → Nat
  | ring r => r.capacity
  | store s => s.capacity

def free : Destination → Nat
  | ring r => r.free
  | store s => s.free

/-- The number of bytes held. -/
def size : Destination → Nat
  | ring r => r.size
  | store s => s.contents.length

def write (data : List UInt8) : Destination → Bool × Destination
  | ring r => let (ok, r) := r.offer data; (ok, ring r)
  | store s => let (ok, s) := s.write data; (ok, store s)

/-- Puts bytes in from outside: a ring takes them if they fit, a store always does. -/
def fill (data : List UInt8) : Destination → Bool × Destination
  | ring r => let (ok, r) := r.offer data; (ok, ring r)
  | store s => (true, store { s with contents := s.contents ++ data })

/-- Takes out the oldest bytes, at most `max` of them. -/
def drain (max : Nat) : Destination → List UInt8 × Destination
  | ring r => let (bs, r) := r.take max; (bs, ring r)
  | store s => (s.contents.take max, store { s with contents := s.contents.drop max })

instance : Sink Destination where
  capacity := capacity
  free := free
  write := write

end Destination

end AdcCapture
