/-
  Reading a binary32 number from decimal text. A numeral is an optional sign followed by digits
  with at most one point among or around them and an optional exponent, or by the word `inf`,
  `infinity` or `nan` in any case. Its exact value is rounded once.
-/
import AdcCapture.Binary32.Basic

namespace AdcCapture.Binary32

/-- What a numeral says before it is rounded. -/
inductive Numeral where
  | nan
  | infinity (negative : Bool)
  /-- The value `digits * 10 ^ exponent` with a sign. -/
  | decimal (negative : Bool) (digits : Nat) (exponent : Int)
deriving DecidableEq, Repr

namespace Numeral

def value : Numeral → Binary32
  | nan => Binary32.nan
  | infinity neg => Binary32.infinity neg
  | decimal neg digits exponent => ofDecimal neg digits exponent

def digitValue (c : Char) : Nat := c.toNat - '0'.toNat

/-- The number that a row of decimal digits writes. -/
def ofDigits (ds : List Char) : Nat := ds.foldl (fun n c => 10 * n + digitValue c) 0

/-- The number that the digits of an exponent write. From 65536 on further digits are not
counted: the value is then infinite or zero for every text of bounded length. -/
def exponentOfDigits (ds : List Char) : Nat :=
  ds.foldl (fun n c => if n < 0x10000 then 10 * n + digitValue c else n) 0

/-- Splits off a leading sign: whether it is a minus, and the rest. -/
def splitSign : List Char → Bool × List Char
  | '-' :: s => (true, s)
  | '+' :: s => (false, s)
  | s => (false, s)

/-- The exponent after its letter: an optional sign and at least one digit, and nothing else. -/
def exponent? (s : List Char) : Option Int :=
  let (neg, ds) := splitSign s
  if ds.isEmpty || !ds.all Char.isDigit then none
  else
    let n := exponentOfDigits ds
    some (if neg then -n else n)

/-- The part after the digits: nothing, or an exponent. -/
def scale? : List Char → Option Int
  | [] => some 0
  | c :: s => if c = 'e' || c = 'E' then exponent? s else none

/-- The digits after a point, if there is one, and the rest. -/
def splitFraction : List Char → List Char × List Char
  | '.' :: s => s.span Char.isDigit
  | s => ([], s)

/-- Reads digits with an optional point and exponent. -/
def decimal? (neg : Bool) (s : List Char) : Option Numeral :=
  let (whole, r) := s.span Char.isDigit
  let (fraction, r) := splitFraction r
  if whole.isEmpty && fraction.isEmpty then none
  else (scale? r).map fun e => decimal neg (ofDigits (whole ++ fraction)) (e - fraction.length)

/-- Reads the words for the values that have no digits. -/
def word? (neg : Bool) (s : List Char) : Option Numeral :=
  let w := s.map Char.toLower
  if w = "nan".toList then some nan
  else if w = "inf".toList || w = "infinity".toList then some (infinity neg)
  else none

def ofList? (s : List Char) : Option Numeral :=
  let (neg, r) := splitSign s
  (decimal? neg r).or (word? neg r)

end Numeral

/-- The number that a text writes, if the text is a numeral. -/
def ofText? (s : String) : Option Binary32 := (Numeral.ofList? s.toList).map Numeral.value

end AdcCapture.Binary32
