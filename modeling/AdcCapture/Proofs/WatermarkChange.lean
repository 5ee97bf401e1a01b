/-
  The one way in which a watermark is changed, step by step: the FIFO is turned off and the buffers
  are given back, new ones are asked for, and only then are the two registers of the watermark
  written. `Fifo.SetWatermarkRuns` has a constructor for each step at which this can end, with the
  calls made until then; `Fifo.SetWatermarkEnds` has everything that they did on the bus.
-/
import AdcCapture.Proofs.BusTraffic
import AdcCapture.Proofs.HealthyBoard

namespace AdcCapture

namespace Board

theorem newBuffers_aside {w : Nat} (hw : Sample.streamLength w < 1 <<< 64) :
    (Fifo.newBuffers w).Obeys aside := by
  have hallocate : (Action.within allocation (Buffers.allocate w)).Obeys aside :=
    .within (Rules.lax.allocate hw trivial) (fun _ _ => trivial)
      fun _ _ _ _ _ => ⟨trivial, rfl, rfl⟩
  exact .recover hallocate fun _ => .bind (log_aside _) fun _ => .fail _

end Board

namespace Fifo

open Converter (SetFieldEnds SetWideEnds)

/-- The calls that a change of the watermark makes, up to the one that fails. -/
inductive SetWatermarkRuns (w : Nat) (f : Fifo) : Outcome Cause Unit × Fifo → Prop where
  | undisabled {e : Cause} {b : Board}
      (hoff : Converter.setFifoMode .disabled f.board = (.error e, b)) :
      SetWatermarkRuns w f (.error e, { f with board := b, buffers := none })
  | noMemory {b c : Board} (hoff : Converter.setFifoMode .disabled f.board = (.ok (), b))
      (hnew : newBuffers w b = (.error .outOfMemory, c)) :
      SetWatermarkRuns w f (.error .outOfMemory, { f with board := c, buffers := none })
  | unprogrammed {e : Cause} {b c d : Board}
      (hoff : Converter.setFifoMode .disabled f.board = (.ok (), b))
      (hnew : newBuffers w b = (.ok (.blank w), c))
      (hset : Converter.setWatermark (UInt16.ofNat w) c = (.error e, d)) :
      SetWatermarkRuns w f (.error e, { f with board := d, buffers := none })
  | done {b c d : Board} {m : Message}
      (hoff : Converter.setFifoMode .disabled f.board = (.ok (), b))
      (hnew : newBuffers w b = (.ok (.blank w), c))
      (hset : Converter.setWatermark (UInt16.ofNat w) c = (.ok (), d)) :
      SetWatermarkRuns w f (.ok (), { f with board := d.noted m, buffers := some (.blank w) })

/-- How a change of the watermark can end. -/
inductive SetWatermarkEnds (w : Nat) (f : Fifo) : Outcome Cause Unit × Fifo → Prop where
  /-- The descriptor is not live, or the converter has no such watermark. -/
  | refused (h : f.live = false ∨ w < 1 ∨ fifoDepth < w) :
      SetWatermarkEnds w f (.error .invalidArgument, f)
  /-- The FIFO could not be turned off. -/
  | undisabled {e : Cause} {b : Board}
      (hoff : SetFieldEnds .fifoMode FifoMode.disabled.code f.board (.error e, b)) :
      SetWatermarkEnds w f (.error e, { f with board := b, buffers := none })
  /-- There is no memory for the buffers. -/
  | noMemory {b c : Board}
      (hoff : SetFieldEnds .fifoMode FifoMode.disabled.code f.board (.ok (), b))
      (hnew : b.After [] b.chip c) :
      SetWatermarkEnds w f (.error .outOfMemory, { f with board := c, buffers := none })
  /-- The registers of the watermark could not both be written. -/
  | unprogrammed {e : Cause} {b c d : Board}
      (hoff : SetFieldEnds .fifoMode FifoMode.disabled.code f.board (.ok (), b))
      (hnew : b.After [] b.chip c)
      (hset : SetWideEnds .watermark (UInt16.ofNat w) c (.error e, d)) :
      SetWatermarkEnds w f (.error e, { f with board := d, buffers := none })
  | done {b c d : Board} {m : Message} (h1 : 1 ≤ w) (h2 : w ≤ fifoDepth)
      (hoff : SetFieldEnds .fifoMode FifoMode.disabled.code f.board (.ok (), b))
      (hnew : b.After [] b.chip c)
      (hset : SetWideEnds .watermark (UInt16.ofNat w) c (.ok (), d)) :
      SetWatermarkEnds w f (.ok (), { f with board := d.noted m, buffers := some (.blank w) })

theorem unsetWatermark_eq (f : Fifo) :
    unsetWatermark f = ((Converter.setFifoMode .disabled f.board).1,
      { f with board := (Converter.setFifoMode .disabled f.board).2, buffers := none }) := by
  have hmode := Converter.setFifoMode_effect .disabled f.board
  rcases hm : Converter.setFifoMode .disabled f.board with ⟨o, b⟩
  have hdisable : disable f = (o, { f with board := b }) := onBoard_eq hm
  rw [hm] at hmode
  unfold unsetWatermark
  cases hmode with
  | unread _ => exact Action.bind_ok _ (Action.attempt_error _ hdisable) _
  | unwritten _ => exact Action.bind_ok _ (Action.attempt_error _ hdisable) _
  | set _ => exact Action.bind_ok _ (Action.attempt_ok _ hdisable) _

theorem newBuffers_error {w : Nat} {b c : Board} {e : Cause}
    (h : newBuffers w b = (.error e, c)) : e = .outOfMemory := by
  obtain ⟨_, d, -, h⟩ := Action.of_recover_error _ h
  rcases Action.of_bind_error _ h with h | ⟨_, _, -, h⟩
  · cases h
  · cases h
    rfl

theorem setWatermark_effect {w : Nat} (h1 : 1 ≤ w) (h2 : w ≤ fifoDepth) (b : Board) :
    SetWideEnds .watermark (UInt16.ofNat w) b (Converter.setWatermark (UInt16.ofNat w) b) := by
  rw [Converter.setWatermark_eq h1 h2]
  exact Converter.setWide_ends _ (by decide) (by decide) b

theorem setWatermark_refused {w : Nat} {f : Fifo} (h : f.live = false ∨ w < 1 ∨ fifoDepth < w) :
    setWatermark w f = (.error .invalidArgument, f) := by
  unfold setWatermark
  rw [Action.state_bind, if_pos (by simpa [or_assoc] using h)]
  rfl

theorem setWatermark_runs {w : Nat} {f : Fifo} (hlive : f.live = true) (h1 : 1 ≤ w)
    (h2 : w ≤ fifoDepth) : SetWatermarkRuns w f (setWatermark w f) := by
  have hgood : ¬ (!f.live || decide (w < 1) || decide (fifoDepth < w)) = true := by
    simp [hlive]
    omega
  have hmode := Converter.setFifoMode_effect .disabled f.board
  have hunset := unsetWatermark_eq f
  unfold setWatermark
  rw [Action.state_bind, if_neg hgood]
  rcases hoff : Converter.setFifoMode .disabled f.board with ⟨o, b⟩
  rw [hoff] at hmode hunset
  cases o with
  | fault x => cases hmode
  | error e =>
    rw [Action.bind_error _ hunset]
    exact .undisabled hoff
  | ok _ =>
    rw [Action.bind_ok _ hunset]
    have hsure := (Board.newBuffers_aside (Buffers.streamLength_lt h2) b trivial).sure
    rcases hnew : newBuffers w b with ⟨o, c⟩
    have hon := onBoard_eq (f := { f with board := b, buffers := none }) hnew
    rw [hnew] at hsure
    cases o with
    | fault x => cases hsure
    | error e =>
      cases newBuffers_error hnew
      rw [Action.bind_error _ hon]
      exact .noMemory hoff hnew
    | ok v =>
      cases newBuffers_ok hnew
      rw [Action.bind_ok _ hon]
      have hwide := setWatermark_effect h1 h2 c
      rcases hset : Converter.setWatermark (UInt16.ofNat w) c with ⟨o, d⟩
      have hon := onBoard_eq (f := { f with board := c, buffers := none }) hset
      rw [hset] at hwide
      cases o with
      | fault x => cases hwide
      | error e =>
        rw [Action.bind_error _ hon]
        exact .unprogrammed hoff hnew hset
      | ok _ =>
        rw [Action.bind_ok _ hon]
        exact .done hoff hnew hset

theorem newBuffers_after {w : Nat} (h : w ≤ fifoDepth) {b c : Board} {o : Outcome Cause Buffers}
    (hnew : newBuffers w b = (o, c)) : b.After [] b.chip c := by
  have hkeeps := Board.newBuffers_aside (Buffers.streamLength_lt h) b trivial
  rw [hnew] at hkeeps
  exact hkeeps.allowed

theorem SetWatermarkRuns.ends {w : Nat} {f : Fifo} {x : Outcome Cause Unit × Fifo}
    (h : SetWatermarkRuns w f x) (h1 : 1 ≤ w) (h2 : w ≤ fifoDepth) : SetWatermarkEnds w f x := by
  have hmode := Converter.setFifoMode_effect .disabled f.board
  cases h with
  | undisabled hoff => exact .undisabled (hoff ▸ hmode)
  | noMemory hoff hnew => exact .noMemory (hoff ▸ hmode) (newBuffers_after h2 hnew)
  | @unprogrammed _ _ c _ hoff hnew hset =>
    exact .unprogrammed (hoff ▸ hmode) (newBuffers_after h2 hnew)
      (hset ▸ setWatermark_effect h1 h2 c)
  | @done _ c _ _ hoff hnew hset =>
    exact .done h1 h2 (hoff ▸ hmode) (newBuffers_after h2 hnew) (hset ▸ setWatermark_effect h1 h2 c)

theorem setWatermark_ends (w : Nat) (f : Fifo) : SetWatermarkEnds w f (setWatermark w f) := by
  by_cases h : f.live = false ∨ w < 1 ∨ fifoDepth < w
  · rw [setWatermark_refused h]
    exact .refused h
  · have hlive : f.live = true := by simp at h; exact h.1
    exact (setWatermark_runs hlive (by omega) (by omega)).ends (by omega) (by omega)

/-- A change of the watermark that succeeds has turned the FIFO off. -/
theorem SetWatermarkEnds.mode {w : Nat} {f g : Fifo}
    (h : SetWatermarkEnds w f (.ok (), g)) : g.board.chip.mode = .disabled := by
  cases h with
  | @done b c d m _ _ hoff hnew hset =>
    calc d.chip.mode = (c.chip.setWide .watermark (UInt16.ofNat w)).mode :=
          congrArg Chip.mode hset.done
      _ = c.chip.mode := by
          unfold Chip.setWide
          rw [Chip.mode_write_of_ne _ _ (by decide), Chip.mode_write_of_ne _ _ (by decide)]
      _ = (f.board.chip.setMode .disabled).mode := by rw [hnew.chip, hoff.done]; rfl
      _ = .disabled := Chip.mode_setMode _ _

end Fifo

end AdcCapture
