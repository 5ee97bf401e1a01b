/-
  The staging buffer of a delivery. Whatever it holds, a block that fits is put together at its
  start and read back whole (`Driver.read_stage`), so nothing of an earlier block is ever written
  again, and a delivery writes the words of its blocks one block after another
  (`Driver.deliver_eq`).
-/
import AdcCapture.Proofs.RingQueue
import AdcCapture.Proofs.SampleStream

namespace AdcCapture

/-- Bytes that were put at the start of an array are read back from there. -/
theorem Stretch.read_put_zero {ε : Type} {n : Nat} (v : Vector UInt8 n) {bytes : List UInt8}
    (hn : n < 1 <<< 64) (h : bytes.length ≤ n) :
    read (ε := ε) (put v 0 bytes) 0 bytes.length = .ok bytes := by
  rw [read_eq _ (by omega) (by omega)]
  refine congrArg Outcome.ok (List.ext_getElem (by simp) fun i hi hb => ?_)
  have hin : i < n := by omega
  have hplace : (put v 0 bytes).getD i 0 = (put v 0 bytes)[i] := by
    unfold Vector.getD Array.getD
    rw [dif_pos (by rwa [Vector.size_toArray])]
    rfl
  rw [List.getElem_map, List.getElem_range, Nat.zero_add, hplace, getElem_put, if_pos (by omega),
    Nat.sub_zero, List.getD_eq_getElem?_getD, List.getElem?_eq_getElem hb, Option.getD_some]

/-- The list is cut into blocks of `size` elements, the last one possibly shorter, none empty. -/
structure Cut {α : Type} (size : Nat) (l : List α) (blocks : List (List α)) : Prop where
  flatten : blocks.flatten = l
  full : ∀ block ∈ blocks.dropLast, block.length = size
  length_le : ∀ block ∈ blocks, block.length ≤ size
  nonempty : ∀ block ∈ blocks, block ≠ []

theorem cut_blocksOf {α : Type} {size : Nat} (hsize : 0 < size) (l : List α) :
    Cut size l (blocksOf size l) := by
  induction l using blocksOf.induct size with
  | case1 =>
    rw [blocksOf]
    exact ⟨rfl, List.forall_mem_nil _, List.forall_mem_nil _, List.forall_mem_nil _⟩
  | case2 a l ih =>
    have hhead : (a :: l.take (size - 1)).length ≤ size := by
      rw [List.length_cons, List.length_take]
      omega
    have hflatten := flatten_blocksOf size (a :: l)
    rw [blocksOf] at hflatten ⊢
    refine ⟨hflatten, fun block hmem => ?_, List.forall_mem_cons.mpr ⟨hhead, ih.length_le⟩,
      List.forall_mem_cons.mpr ⟨List.cons_ne_nil _ _, ih.nonempty⟩⟩
    by_cases hrest : blocksOf size (l.drop (size - 1)) = []
    · rw [hrest] at hmem
      cases hmem
    · -- where a block follows, there were enough elements for the first one
      have hlong : size - 1 < l.length := by
        refine Nat.lt_of_not_le fun hle => hrest ?_
        rw [List.drop_eq_nil_of_le hle, blocksOf]
      rw [List.dropLast_cons_of_ne_nil hrest] at hmem
      rcases List.mem_cons.mp hmem with rfl | hmem
      · rw [List.length_cons, List.length_take]
        omega
      · exact ih.full block hmem

namespace Driver

/-- The words are put one behind the other. -/
theorem stage_eq (staging : Staging) (i : Nat) (block : List UInt32) :
    stage staging i block =
      Stretch.put staging (i * Sample.wordBytes) (block.flatMap Sample.littleEndian) := by
  induction block generalizing staging i with
  | nil => rfl
  | cons w rest ih =>
    have hnext : (i + 1) * Sample.wordBytes =
        i * Sample.wordBytes + (Sample.littleEndian w).length := Nat.succ_mul _ _
    rw [stage, ih, hnext, Stretch.put_put, List.flatMap_cons]

/-- A block of the staging buffer's size or less is read out of it as it was put in, whatever the
buffer held before. -/
theorem read_stage {ε : Type} (staging : Staging) {block : List UInt32}
    (h : block.length ≤ blockSamples) :
    Stretch.read (ε := ε) (stage staging 0 block) 0 (block.length * Sample.wordBytes) =
      .ok (block.flatMap Sample.littleEndian) := by
  have hlength : block.length * Sample.wordBytes = (block.flatMap Sample.littleEndian).length := by
    rw [Sample.length_flatMap_littleEndian, Nat.mul_comm]
  rw [stage_eq, Nat.zero_mul, hlength]
  refine Stretch.read_put_zero staging (by decide) ?_
  rw [← hlength]
  exact Nat.mul_le_mul_right _ h

variable {σ δ : Type} [Sink δ] (b : Part σ Board) (q : Part σ δ)

/-- Writes the words of one block to the sink. -/
def writeBlock (block : List UInt32) : Call σ Unit :=
  writeBytes b q (block.flatMap Sample.littleEndian)

/-- Writes blocks until one is refused. -/
def writeBlocks : List (List UInt32) → Call σ Unit
  | [] => return ()
  | block :: rest => do
    writeBlock b q block
    writeBlocks rest

theorem writeStaged_eq (staging : Staging) {blocks : List (List UInt32)}
    (h : ∀ block ∈ blocks, block.length ≤ blockSamples) :
    writeStaged b q staging blocks = writeBlocks b q blocks := by
  induction blocks generalizing staging with
  | nil => rfl
  | cons block rest ih =>
    rw [writeStaged, read_stage staging (h block List.mem_cons_self)]
    exact congrArg (writeBlock b q block >>= ·) (funext fun _ =>
      ih _ fun block' hmem => h block' (List.mem_cons_of_mem _ hmem))

/-- A delivery writes the words of its blocks. -/
theorem deliver_eq (samples : List UInt32) :
    deliver b q samples = (do
      let sink := q.get (← Action.state)
      let limit := min samples.length (Sink.capacity sink / Sample.wordBytes)
      if limit < samples.length then
        Action.within b (Board.log (.submitTruncated limit samples.length))
      else pure ()
      if Sink.free sink < limit * Sample.wordBytes then .fail .bufferFull
      else writeBlocks b q (blocksOf blockSamples (samples.take limit))) := by
  have hblocks : ∀ l staging, writeStaged b q staging (blocksOf blockSamples l) =
      writeBlocks b q (blocksOf blockSamples l) := fun l staging =>
    writeStaged_eq b q staging fun block hmem => (cut_blocksOf (by decide) l).length_le block hmem
  unfold deliver
  simp only [hblocks]

end Driver

end AdcCapture
