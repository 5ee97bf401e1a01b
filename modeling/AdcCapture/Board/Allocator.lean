/-
  The allocator behind the sample buffers: it grants or refuses each reservation, and keeps the
  list of what was asked of it.
-/
import AdcCapture.Outcome

namespace AdcCapture

/-- A reservation that was refused. -/
structure AllocError where
deriving DecidableEq, Repr

structure Allocator where
  /-- Whether a reservation is granted, by the number of those before it and its size. -/
  grants : Nat → Nat → Bool
  /-- While set, `grants` is not asked and only the size that no machine has is refused. -/
  waived : Bool := false
  /-- The reservations so far, the latest first, and whether each was granted. -/
  requests : List (Nat × Bool) := []

namespace Allocator

/-- Grants whatever is within the limit, if there is one, and below 2^47 bytes. -/
def limited (limit : Option Nat) : Nat → Nat → Bool := fun _ bytes =>
  limit.all (bytes ≤ ·) && bytes < 1 <<< 47

instance : Inhabited Allocator := ⟨{ grants := limited none }⟩

/-- Asks for a number of bytes. More than 2^63 - 1 bytes are never granted. -/
def reserve (bytes : Nat) : Action Allocator AllocError Unit := fun a =>
  let grants := if a.waived then limited none else a.grants
  let granted := bytes < 1 <<< 63 && grants a.requests.length bytes
  (if granted then .ok () else .error {}, { a with requests := (bytes, granted) :: a.requests })

end Allocator

end AdcCapture
