/-
  Text of a binary32 number with a fixed number of decimal places. The exact value is rounded to
  the last place, a half to the even neighbour; a negative zero keeps its sign.
-/
import AdcCapture.Binary32.Basic

namespace AdcCapture.Binary32

/-- Fills a text with blanks on the left up to a width. -/
def padLeft (width : Nat) (s : List Char) : List Char :=
  List.replicate (width - s.length) ' ' ++ s

/-- The digits of `n` with a point before the last `places` of them. -/
def placePoint (places n : Nat) : List Char :=
  let ds := Nat.toDigits 10 n
  let ds := List.replicate (places + 1 - ds.length) '0' ++ ds
  let whole := ds.length - places
  if places = 0 then ds else ds.take whole ++ '.' :: ds.drop whole

def fixedChars (places : Nat) (x : Binary32) : List Char :=
  if x.isNaN then "NaN".toList
  else
    let body :=
      if x.isInfinite then "inf".toList
      else placePoint places (roundHalfEven (x.magnitude * Nat.pow 10 places) oneUnits)
    if x.negative then '-' :: body else body

/-- The number with `places` decimals, right-aligned in `width` columns. -/
def toFixed (width places : Nat) (x : Binary32) : String :=
  String.ofList (padLeft width (fixedChars places x))

end AdcCapture.Binary32
