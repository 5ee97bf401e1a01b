/-
  The two buffers of a watermark: one for the byte stream of a readout, one for its samples.
-/
import AdcCapture.Board.Allocator
import AdcCapture.Sample
import AdcCapture.Size

namespace AdcCapture

structure Buffers where
  /-- The stream of the last readout. -/
  raw : Array UInt8
  /-- The samples of the last readout that was decoded. -/
  samples : Array UInt32
deriving DecidableEq, Repr

namespace Buffers

/-- The bytes of the stream of `w` samples. -/
def rawLength {ε : Type} (w : Nat) : Outcome ε Nat := Size.checked (Sample.streamLength w)

/-- The bytes of `w` samples in memory. -/
def formattedLength {ε : Type} (w : Nat) : Outcome ε Nat := Size.checked (w * Sample.wordBytes)

/-- Buffers for `w` samples, all zero: the one for the stream is asked for first. -/
def allocate (w : Nat) : Action Allocator AllocError Buffers := do
  let raw ← Action.give (rawLength w)
  Allocator.reserve raw
  Allocator.reserve (w * Sample.wordBytes)
  return { raw := Array.replicate raw 0, samples := Array.replicate w 0 }

/-- The number of samples the buffers hold. -/
def watermark (b : Buffers) : Nat := b.samples.size

def rawSize (b : Buffers) : Nat := b.raw.size

def formattedSize (b : Buffers) : Nat := b.samples.size * Sample.wordBytes

/-- Decodes the stream into the samples. -/
def format {ε : Type} (b : Buffers) : Outcome ε Buffers :=
  (Sample.decode b.raw b.samples.size).map fun s => { b with samples := s }

/-- The buffers with bytes copied over the start of the stream, cut to its size. -/
def load (b : Buffers) (bytes : Array UInt8) : Buffers :=
  { b with raw := Array.ofFn fun i : Fin b.raw.size => bytes.getD i (b.raw[i]) }

end Buffers

end AdcCapture
