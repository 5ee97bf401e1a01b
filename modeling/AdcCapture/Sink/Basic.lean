/-
  Destinations of captured samples. A sink takes a block of bytes whole or not at all.
-/

namespace AdcCapture

/-- What captured samples can be written to. -/
class Sink (δ : Type) where
  /-- The declared capacity in bytes. -/
  capacity : δ → Nat
  /-- The bytes that can be written now, as far as the sink says. -/
  free : δ → Nat
  /-- Appends a block; whether it was taken, and the sink afterwards. -/
  write : List UInt8 → δ → Bool × δ

end AdcCapture
