/-
  Unsigned 32-bit numerals: decimal digits, or `0x` and hexadecimal digits in either case. No
  sign, blank or separator is accepted, and the value must fit in 32 bits.
-/

namespace AdcCapture.Text

/-- The value of an ASCII digit in a base of at most sixteen. -/
def digit? (base : Nat) (c : Char) : Option Nat :=
  let n := c.toNat
  let v :=
    if '0'.toNat ≤ n ∧ n ≤ '9'.toNat then some (n - '0'.toNat)
    else if 'a'.toNat ≤ n ∧ n ≤ 'f'.toNat then some (n - 'a'.toNat + 10)
    else if 'A'.toNat ≤ n ∧ n ≤ 'F'.toNat then some (n - 'A'.toNat + 10)
    else none
  v.filter (· < base)

/-- The value of a row of digits after those already read, if all of them are digits. -/
def digitsFrom? (base : Nat) (read : Nat) : List Char → Option Nat
  | [] => some read
  | c :: s => (digit? base c).bind fun d => digitsFrom? base (base * read + d) s

/-- The value of a non-empty row of digits. -/
def digits? (base : Nat) : List Char → Option Nat
  | [] => none
  | s => digitsFrom? base 0 s

/-- The digits of a numeral and their base. -/
def splitBase : List Char → Nat × List Char
  | '0' :: 'x' :: s => (16, s)
  | s => (10, s)

def unsignedOfList? (s : List Char) : Option Nat :=
  let (base, ds) := splitBase s
  (digits? base ds).filter (· < 1 <<< 32)

/-- The value of an unsigned 32-bit numeral. -/
def unsigned? (s : String) : Option Nat := unsignedOfList? s.toList

end AdcCapture.Text
