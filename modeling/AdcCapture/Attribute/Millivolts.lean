/-
  Codes and millivolts. A code is worth a fixed number of millivolts per step; a value in
  millivolts is clamped to the range of the codes, divided by the step and rounded to the nearest
  code, a half away from zero.
-/
import AdcCapture.Outcome
import AdcCapture.Binary32.FixedPlaces
import AdcCapture.Binary32.Numeral
import AdcCapture.Sample

namespace AdcCapture

namespace Millivolts

/-- The reference voltage in volts. -/
def referenceVolts : Binary32 := .ofDecimal false 33 (-1)

/-- Millivolts per code of a sample. -/
def sampleStep : Binary32 :=
  referenceVolts / Binary32.ofInt Sample.maxCode * Binary32.ofInt 1000

/-- Millivolts per code of the offset correction. -/
def offsetStep : Binary32 := .ofDecimal false 572 (-5)

/-- Millivolts per code of the event detection. -/
def eventStep : Binary32 := .ofDecimal false 146484 (-5)

/-- The number of the range from `lo` to `hi` that is nearest to `x`; a NaN stays. The bounds
have to be in order. -/
def clamp {ε : Type} (lo hi x : Binary32) : Outcome ε Binary32 :=
  if lo.le hi then .ok (if x.lt lo then lo else if hi.lt x then hi else x)
  else .fault .arithmetic

/-- The code from `lo` to `hi` that is nearest to a value in millivolts. The bounds have to be in
order, as codes and in millivolts. -/
def toCode {ε : Type} (mv step : Binary32) (lo hi : Int) : Outcome ε Int :=
  match clamp (ε := ε) (.ofInt lo * step) (.ofInt hi * step) mv with
  | .ok x =>
    if lo ≤ hi then .ok (max lo (min hi ((x / step).toIntWithin (-32768) 32767)))
    else .fault .arithmetic
  | .error e => .error e
  | .fault b => .fault b

/-- The text of a value in millivolts: six places in ten columns. -/
def text (x : Binary32) : String := x.toFixed 10 6

/-- The text of a code. -/
def textOfCode (step : Binary32) (code : Int) : String := text (.ofInt code * step)

/-- The value that a text writes; a NaN is none. -/
def ofText? (s : String) : Option Binary32 := (Binary32.ofText? s).filter fun x => !x.isNaN

end Millivolts

end AdcCapture
