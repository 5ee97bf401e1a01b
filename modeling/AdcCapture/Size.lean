/-
  Arithmetic on sizes and places in memory. They are 64-bit words: a result outside their range
  is a fault and not a number.
-/
import AdcCapture.Outcome

namespace AdcCapture.Size

variable {ε : Type}

/-- A number that has to fit in 64 bits. -/
def checked (n : Nat) : Outcome ε Nat := if n < 1 <<< 64 then .ok n else .fault .arithmetic

def add (a b : Nat) : Outcome ε Nat := checked (a + b)

def sub (a b : Nat) : Outcome ε Nat := if b ≤ a then .ok (a - b) else .fault .arithmetic

theorem add_eq {a b : Nat} (h : a + b < 1 <<< 64) : add (ε := ε) a b = .ok (a + b) := if_pos h

theorem sub_eq {a b : Nat} (h : b ≤ a) : sub (ε := ε) a b = .ok (a - b) := if_pos h

end AdcCapture.Size
