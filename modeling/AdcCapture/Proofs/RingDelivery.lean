/-
  Delivering samples to a ring. A block that fits is appended to what the ring holds, so blocks
  that fit together are appended one after another (`writeBlocks_ring`), and a delivery appends
  the words of as many samples as the capacity admits, or nothing (`deliver_ring`). Of the driver
  it changes only the record of its board.
-/
import AdcCapture.Proofs.Operation
import AdcCapture.Proofs.StagingBuffer

namespace AdcCapture.Scene

variable {δ : Type}

/-- Nothing but notes in the record of the board, and the sinks, may differ. -/
structure Noted (s t : Scene δ) : Prop where
  driver : ∃ es : List Event,
    t.driver = Driver.boardPart.set { Driver.boardPart.get s.driver with record := es } s.driver
  journal : ∃ ds : List Driver, t.journal = ds.map Entry.passed ++ s.journal

namespace Noted

variable {s t u : Scene δ}

theorem refl (s : Scene δ) : Noted s s := ⟨⟨s.driver.fifo.board.record, rfl⟩, [], rfl⟩

theorem trans (h : Noted s t) (h' : Noted t u) : Noted s u := by
  obtain ⟨⟨es, hd⟩, ds, hj⟩ := h
  obtain ⟨⟨es', hd'⟩, ds', hj'⟩ := h'
  refine ⟨⟨es', ?_⟩, ds' ++ ds, ?_⟩
  · rw [hd', hd]
    rfl
  · rw [hj', hj, List.map_append, List.append_assoc]

end Noted

/-- A note on the board. -/
theorem note_within {ε : Type} (e : Event) (s : Scene δ) :
    ∃ t, (Action.within boardPart (Board.note e) : Action (Scene δ) ε Unit) s = (.ok (), t) ∧
      Noted s t ∧ t.sinks = s.sinks :=
  ⟨_, rfl, ⟨⟨_, rfl⟩, [_], rfl⟩, rfl⟩

/-- A block that fits into a ring is appended to it. -/
theorem writeBlock_ring (i : Nat) (block : List UInt32) {s : Scene Ring}
    (h : (block.flatMap Sample.littleEndian).length ≤ (s.sinks i).free) :
    ∃ t, Driver.writeBlock boardPart (sinkPart i) block s = (.ok (), t) ∧ Noted s t ∧
      t.sinks i = (s.sinks i).append (block.flatMap Sample.littleEndian) := by
  have hoffer : Sink.write (block.flatMap Sample.littleEndian) (s.sinks i) =
      (true, (s.sinks i).append (block.flatMap Sample.littleEndian)) := by
    change (s.sinks i).offer _ = _
    rw [Ring.offer_apply, if_pos h]
  unfold Driver.writeBlock Driver.writeBytes
  rw [Action.state_bind, show (sinkPart i).get s = s.sinks i from rfl]
  dsimp only
  rw [hoffer, Action.update_bind]
  obtain ⟨t, hnote, hnoted, hsinks⟩ := note_within (ε := Cause)
    (.sinkWrite (block.flatMap Sample.littleEndian).length true)
    ((sinkPart i).set ((s.sinks i).append (block.flatMap Sample.littleEndian)) s)
  refine ⟨t, Action.bind_ok _ hnote _, ⟨hnoted.driver, hnoted.journal⟩, ?_⟩
  rw [hsinks]
  exact if_pos rfl

/-- Blocks that fit into a ring together are appended to it one after another. -/
theorem writeBlocks_ring (i : Nat) (blocks : List (List UInt32)) {s : Scene Ring}
    (h : (blocks.flatten.flatMap Sample.littleEndian).length ≤ (s.sinks i).free) :
    ∃ t, Driver.writeBlocks boardPart (sinkPart i) blocks s = (.ok (), t) ∧ Noted s t ∧
      (t.sinks i).toList =
        (s.sinks i).toList ++ blocks.flatten.flatMap Sample.littleEndian := by
  induction blocks generalizing s with
  | nil =>
    refine ⟨s, rfl, .refl s, ?_⟩
    rw [List.flatten_nil, List.flatMap_nil, List.append_nil]
  | cons block rest ih =>
    rw [List.flatten_cons, List.flatMap_append, List.length_append] at h
    have hblock : (block.flatMap Sample.littleEndian).length ≤ (s.sinks i).free := by omega
    obtain ⟨t, hwrite, hnoted, hring⟩ := writeBlock_ring i block hblock
    have hsize := Ring.size_append hblock
    have hfree : (t.sinks i).free =
        (s.sinks i).free - (block.flatMap Sample.littleEndian).length := by
      rw [hring]
      unfold Ring.free
      rw [hsize]
      exact Nat.sub_add_eq _ _ _
    obtain ⟨u, hrest, hnoted', hlist⟩ := ih (s := t) (by omega)
    refine ⟨u, (Action.bind_ok _ hwrite _).trans hrest, hnoted.trans hnoted', ?_⟩
    rw [hlist, hring, Ring.toList_append hblock, List.flatten_cons, List.flatMap_append,
      List.append_assoc]

/-- The number of samples that a delivery takes. -/
def limit (r : Ring) (samples : List UInt32) : Nat :=
  min samples.length (r.capacity / Sample.wordBytes)

/-- A delivery appends the samples up to the limit, if there is room for all of them, and nothing
otherwise. -/
theorem deliver_ring (i : Nat) (samples : List UInt32) (s : Scene Ring) :
    ∃ t, Noted s t ∧
      if limit (s.sinks i) samples * Sample.wordBytes ≤ (s.sinks i).free then
        Driver.deliver boardPart (sinkPart i) samples s = (.ok (), t) ∧
          (t.sinks i).toList = (s.sinks i).toList ++
            (samples.take (limit (s.sinks i) samples)).flatMap Sample.littleEndian
      else
        Driver.deliver boardPart (sinkPart i) samples s = (.error .bufferFull, t) ∧
          t.sinks i = s.sinks i := by
  have hlog : ∃ s', Noted s s' ∧ s'.sinks = s.sinks ∧
      Driver.deliver boardPart (sinkPart i) samples s =
        (if (s.sinks i).free < limit (s.sinks i) samples * Sample.wordBytes then .fail .bufferFull
          else Driver.writeBlocks boardPart (sinkPart i)
            (blocksOf Driver.blockSamples (samples.take (limit (s.sinks i) samples))) :
            Call (Scene Ring) Unit) s' := by
    rw [Driver.deliver_eq, Action.state_bind]
    dsimp only
    split
    · obtain ⟨s', hnote, hnoted, hsinks⟩ := note_within (ε := Cause)
        (.log (.submitTruncated (limit (s.sinks i) samples) samples.length)) s
      exact ⟨s', hnoted, hsinks, Action.bind_ok _ hnote _⟩
    · exact ⟨s, .refl s, rfl, rfl⟩
  obtain ⟨s', hnoted, hsinks, hrun⟩ := hlog
  rw [hrun]
  by_cases hroom : limit (s.sinks i) samples * Sample.wordBytes ≤ (s.sinks i).free
  · have hwhole : (blocksOf Driver.blockSamples
        (samples.take (limit (s.sinks i) samples))).flatten = _ := flatten_blocksOf _ _
    have hfit : ((blocksOf Driver.blockSamples
        (samples.take (limit (s.sinks i) samples))).flatten.flatMap Sample.littleEndian).length ≤
          (s'.sinks i).free := by
      have hlimit : limit (s.sinks i) samples ≤ samples.length := Nat.min_le_left _ _
      rw [hwhole, Sample.length_flatMap_littleEndian, List.length_take, Nat.min_eq_left hlimit,
        Nat.mul_comm, hsinks]
      exact hroom
    obtain ⟨t, hwrite, hnoted', hlist⟩ := writeBlocks_ring i _ hfit
    refine ⟨t, hnoted.trans hnoted', ?_⟩
    rw [if_pos hroom, if_neg (Nat.not_lt.mpr hroom)]
    rw [hwhole, hsinks] at hlist
    exact ⟨hwrite, hlist⟩
  · refine ⟨s', hnoted, ?_⟩
    rw [if_neg hroom, if_pos (Nat.lt_of_not_le hroom), hsinks]
    exact ⟨rfl, rfl⟩

end AdcCapture.Scene
