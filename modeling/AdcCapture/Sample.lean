/-
  The two forms of a sample. In the FIFO's byte stream one synchronisation byte is followed by
  three bytes per sample, the highest first; in memory a sample is a zero-extended 32-bit word.
-/
import AdcCapture.Outcome

namespace AdcCapture

/-- The number of samples the converter's FIFO can hold. -/
def fifoDepth : Nat := 16384

namespace Sample

/-- Significant bits of a sample. -/
def resolution : Nat := 20

/-- The largest code of a sample. -/
def maxCode : Nat := 1 <<< resolution - 1

/-- Bytes of a sample in the stream. -/
def packedBytes : Nat := (resolution + 7) / 8

/-- Bytes before the first sample in the stream. -/
def syncBytes : Nat := 1

/-- Bytes of a sample in memory. -/
def wordBytes : Nat := 4

/-- The length of the stream of `n` samples. -/
def streamLength (n : Nat) : Nat := packedBytes * n + syncBytes

/-- The word of three bytes, the highest first. -/
def ofBytes (high middle low : UInt8) : UInt32 :=
  UInt32.ofNat (high.toNat <<< 16 + middle.toNat <<< 8 + low.toNat)

/-- The three low bytes of a word, the highest first. -/
def toBytes (w : UInt32) : List UInt8 :=
  [UInt8.ofNat (w.toNat >>> 16), UInt8.ofNat (w.toNat >>> 8), UInt8.ofNat w.toNat]

/-- Sample `i` of a stream. -/
def wordAt (stream : Array UInt8) (i : Nat) : UInt32 :=
  let start := packedBytes * i + syncBytes
  ofBytes (stream.getD start 0) (stream.getD (start + 1) 0) (stream.getD (start + 2) 0)

/-- The first `n` samples of a stream, which has to be long enough; what follows is ignored. -/
def decode {ε : Type} (stream : Array UInt8) (n : Nat) : Outcome ε (Array UInt32) :=
  if streamLength n ≤ stream.size then .ok (Array.ofFn fun i : Fin n => wordAt stream i)
  else .fault .rawTooShort

/-- The stream of a list of samples after a synchronisation byte. -/
def pack (sync : UInt8) (samples : List UInt32) : Array UInt8 :=
  (sync :: samples.flatMap toBytes).toArray

/-- The four bytes of a word in memory, the lowest first. -/
def littleEndian (w : UInt32) : List UInt8 :=
  [UInt8.ofNat w.toNat, UInt8.ofNat (w.toNat >>> 8), UInt8.ofNat (w.toNat >>> 16),
    UInt8.ofNat (w.toNat >>> 24)]

end Sample

end AdcCapture
