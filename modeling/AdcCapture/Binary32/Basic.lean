/-
  Binary32 numbers as bit patterns, with exact arithmetic behind them.

  Every finite number is a whole count of the least positive one, 2^-149 (its *units*). Products,
  quotients, integers and decimals are formed exactly as a quotient of naturals in units and
  rounded once, to the nearest representable number, a half to the even neighbour.
-/

namespace AdcCapture

/-- The quotient `num / den` rounded to the nearest integer, a half to the even neighbour. -/
def roundHalfEven (num den : Nat) : Nat :=
  let q := num / den
  let r := num % den
  if 2 * r < den then q
  else if den < 2 * r then q + 1
  else if q % 2 = 0 then q
  else q + 1

/-- A binary32 number: a sign bit, eight bits of exponent and twenty-three of fraction. -/
structure Binary32 where
  bits : UInt32
deriving DecidableEq, Repr

namespace Binary32

/-- The number one in units. -/
def oneUnits : Nat := 1 <<< 149

/-- The magnitude pattern of the infinities; NaNs lie above it and finite numbers below. -/
def infinityPattern : Nat := 255 <<< 23

def negative (x : Binary32) : Bool := 1 <<< 31 ≤ x.bits.toNat

/-- The bits without the sign. Magnitudes order as their patterns do. -/
def pattern (x : Binary32) : Nat := x.bits.toNat % 1 <<< 31

def isNaN (x : Binary32) : Bool := infinityPattern < x.pattern

def isInfinite (x : Binary32) : Bool := x.pattern = infinityPattern

/-- The units that a finite magnitude pattern stands for: with exponent field 0 the fraction is
the count; otherwise a leading bit is put before it and doubled once per step of the exponent. -/
def unitsOf (p : Nat) : Nat :=
  if p >>> 23 = 0 then p else (1 <<< 23 + p % 1 <<< 23) <<< (p >>> 23 - 1)

/-- The magnitude of a finite number in units. -/
def magnitude (x : Binary32) : Nat := unitsOf x.pattern

/-- The exact value of a finite number in units. -/
def units (x : Binary32) : Int := if x.negative then -x.magnitude else x.magnitude

def ofPattern (negative : Bool) (p : Nat) : Binary32 :=
  ⟨UInt32.ofNat (if negative then 1 <<< 31 + p else p)⟩

def infinity (negative : Bool) : Binary32 := ofPattern negative infinityPattern

def nan : Binary32 := ofPattern false (infinityPattern + 1 <<< 22)

def zero (negative : Bool) : Binary32 := ofPattern negative 0

/-- The magnitude pattern nearest to `num / den` units. The quotient is rounded on the grid of
its leading bit, 24 bits wide; a carry out of the top bit moves to the next exponent by itself,
and what lies above the largest finite number becomes infinity. -/
def roundPattern (num den : Nat) : Nat :=
  let shift := Nat.log2 (num / den) - 23
  min (shift <<< 23 + roundHalfEven num (den <<< shift)) infinityPattern

/-- The number nearest to `num / den` units, with the given sign. -/
def round (negative : Bool) (num den : Nat) : Binary32 :=
  ofPattern negative (roundPattern num den)

/-- The number nearest to an integer. -/
def ofInt (n : Int) : Binary32 := round (n < 0) (n.natAbs * oneUnits) 1

/-- The number nearest to `digits * 10 ^ exponent`. -/
def ofDecimal (negative : Bool) (digits : Nat) (exponent : Int) : Binary32 :=
  round negative (digits * Nat.pow 10 exponent.toNat * oneUnits) (Nat.pow 10 (-exponent).toNat)

def mul (x y : Binary32) : Binary32 :=
  let sign := x.negative != y.negative
  if x.isNaN || y.isNaN then nan
  else if x.isInfinite || y.isInfinite then
    if x.pattern = 0 || y.pattern = 0 then nan else infinity sign
  else round sign (x.magnitude * y.magnitude) oneUnits

def div (x y : Binary32) : Binary32 :=
  let sign := x.negative != y.negative
  if x.isNaN || y.isNaN then nan
  else if x.isInfinite then
    if y.isInfinite then nan else infinity sign
  else if y.isInfinite then zero sign
  else if y.pattern = 0 then
    if x.pattern = 0 then nan else infinity sign
  else round sign (x.magnitude * oneUnits) y.magnitude

instance : Mul Binary32 := ⟨mul⟩

instance : Div Binary32 := ⟨div⟩

/-- The place of a number in the order of all numbers, the infinities included; both zeros have
the same place, and a NaN has none. -/
def key (x : Binary32) : Option Int :=
  if x.isNaN then none
  else if x.negative then some (-x.pattern)
  else some x.pattern

/-- Below in the order of numbers; false if either is a NaN. -/
def lt (x y : Binary32) : Bool :=
  match x.key, y.key with
  | some a, some b => a < b
  | _, _ => false

/-- At or below in the order of numbers; false if either is a NaN. -/
def le (x y : Binary32) : Bool :=
  match x.key, y.key with
  | some a, some b => a ≤ b
  | _, _ => false

/-- The nearest integer of a finite number, a half away from zero. -/
def nearestInt (x : Binary32) : Int :=
  let n := (2 * x.magnitude + oneUnits) / (2 * oneUnits)
  if x.negative then -n else n

/-- The nearest integer, a half away from zero, cut to the range from `lo` to `hi`; a NaN
counts as zero. -/
def toIntWithin (lo hi : Int) (x : Binary32) : Int :=
  if x.isNaN then 0
  else if x.isInfinite then (if x.negative then lo else hi)
  else max lo (min hi x.nearestInt)

end Binary32

end AdcCapture
