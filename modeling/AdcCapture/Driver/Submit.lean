/-
  Delivering a capture to a sink: the samples as little-endian words, as many as the declared
  capacity admits, in blocks. Nothing is written unless the sink says that all of them fit. The
  words of a block are put together in a staging buffer, the same one for every block.
-/
import AdcCapture.Driver.Capture
import AdcCapture.Sink.Ring

namespace AdcCapture

/-- A list cut into blocks of `size` elements, the last one possibly shorter. -/
def blocksOf {α : Type} (size : Nat) : List α → List (List α)
  | [] => []
  | a :: l => (a :: l.take (size - 1)) :: blocksOf size (l.drop (size - 1))
termination_by l => l.length
decreasing_by simp only [List.length_drop, List.length_cons]; omega

namespace Driver

/-- The samples of one block. -/
def blockSamples : Nat := 64

/-- The buffer that the words of a block are put together in. -/
abbrev Staging := Vector UInt8 (blockSamples * Sample.wordBytes)

/-- Copies samples to the staging buffer, from the word `i` on. What lies beyond its end is dropped,
and what is not written over stays. -/
def stage (staging : Staging) (i : Nat) : List UInt32 → Staging
  | [] => staging
  | w :: rest =>
    stage (Stretch.put staging (i * Sample.wordBytes) (Sample.littleEndian w)) (i + 1) rest

/-- Writes bytes to the sink, and notes it on the board. -/
def writeBytes {σ δ : Type} [Sink δ] (b : Part σ Board) (q : Part σ δ) (bytes : List UInt8) :
    Call σ Unit := do
  let (taken, sink) := Sink.write bytes (q.get (← Action.state))
  Action.update (q.set sink)
  Action.within b (Board.note (.sinkWrite bytes.length taken))
  if taken then return () else .fail .bufferFull

/-- Writes blocks until one is refused, each of them out of the staging buffer. -/
def writeStaged {σ δ : Type} [Sink δ] (b : Part σ Board) (q : Part σ δ) :
    Staging → List (List UInt32) → Call σ Unit
  | _, [] => return ()
  | staging, block :: rest => do
    let staging := stage staging 0 block
    let bytes ← Action.give (Stretch.read staging 0 (block.length * Sample.wordBytes))
    writeBytes b q bytes
    writeStaged b q staging rest

/-- Copies samples to the sink, up to its declared capacity. -/
def deliver {σ δ : Type} [Sink δ] (b : Part σ Board) (q : Part σ δ) (samples : List UInt32) :
    Call σ Unit := do
  let sink := q.get (← Action.state)
  let limit := min samples.length (Sink.capacity sink / Sample.wordBytes)
  if limit < samples.length then
    Action.within b (Board.log (.submitTruncated limit samples.length))
  else pure ()
  if Sink.free sink < limit * Sample.wordBytes then .fail .bufferFull
  else writeStaged b q (Vector.replicate _ 0) (blocksOf blockSamples (samples.take limit))

/-- Captures `n` samples and copies them to the sink. The watermark is set first if it is not
already `n`. -/
def submitOn {σ δ : Type} [Sink δ] (p : Part σ Driver) (q : Part σ δ) (interrupts : Interrupts σ)
    (n : Nat) : Call σ Unit := do
  if (p.get (← Action.state)).watermark = n then pure ()
  else Action.within p (setWatermark n)
  captureOn p interrupts
  deliver (p.andThen boardPart) q (p.get (← Action.state)).samples.toList

end Driver

end AdcCapture
