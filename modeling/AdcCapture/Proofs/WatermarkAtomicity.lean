/-
  A change of the watermark happens as a whole or not at all. Its registers are written only once
  the FIFO is off and both buffers are granted (`Fifo.Cleared`), so no schedule of failures and no
  allocator can leave the converter programmed while it samples, or buffers for another watermark
  than the one programmed. A change that fails on the way leaves no buffers; neither does giving
  the watermark up, which changes nothing more the second time.
-/
import AdcCapture.Proofs.WatermarkAgreement

namespace AdcCapture

/-! ## What is done to the registers of the watermark -/

/-- Whether the access is a write to a register of the watermark, also one that failed. -/
def BusAccess.programs : BusAccess → Bool
  | write a _ _ => a = Register.watermarkLow || a = Register.watermarkHigh
  | _ => false

/-- Whether the access has turned the FIFO off. -/
def BusAccess.disables : BusAccess → Bool
  | write a v true => a = Register.generalConfig && Field.fifoMode.get v = 0
  | _ => false

/-! ## Reservations -/

namespace Fifo

open Converter (SetFieldEnds SetWideEnds)

theorem requests_newBuffers {w : Nat} {b c : Board} {v : Buffers}
    (h : newBuffers w b = (.ok v, c)) :
    c.allocator.requests = (4 * w, true) :: (3 * w + 1, true) :: b.allocator.requests := by
  rcases Action.of_recover_ok _ h with h | ⟨e, t, -, h⟩
  · obtain ⟨a, ha, rfl⟩ := Action.of_within_ok _ h
    exact Buffers.requests_allocate ha
  · obtain ⟨_, _, _, h⟩ := Action.of_bind_ok _ h
    cases h

/-! ## Giving the watermark up -/

theorem setFifoMode_accessed {m : FifoMode} {o : Outcome Cause Unit} {b c : Board}
    (h : Converter.setFifoMode m b = (o, c)) : b.Accessed c := by
  have hkeeps := Board.Rules.accessing.setFifoMode m ⟨nofun, rfl⟩ b trivial
  rw [h] at hkeeps
  exact hkeeps.allowed

theorem unsetWatermark_buffers (f : Fifo) : (unsetWatermark f).2.buffers = none := by
  rw [unsetWatermark_eq]

theorem unsetWatermark_reliable {f : Fifo} (h : f.board.Reliable) :
    (unsetWatermark f).1 = .ok () ∧ (unsetWatermark f).2.board.Reliable := by
  obtain ⟨c, hoff, hc, -⟩ := h.setFifoMode .disabled
  rw [unsetWatermark_eq, hoff]
  exact ⟨rfl, h.after hc⟩

theorem unsetWatermark_done {f : Fifo} (h : (unsetWatermark f).1 = .ok ()) :
    ∃ c, unsetWatermark f = (.ok (), { f with board := c, buffers := none }) ∧
      f.board.Accessed c ∧ c.chip = f.board.chip.setMode .disabled := by
  have hmode := Converter.setFifoMode_effect .disabled f.board
  rw [unsetWatermark_eq] at h ⊢
  rcases hoff : Converter.setFifoMode .disabled f.board with ⟨o, c⟩
  rw [hoff] at h hmode
  cases h
  exact ⟨c, rfl, setFifoMode_accessed hoff, hmode.done⟩

/-- A watermark that was given up is given up a second time without any change, if the bus does not
fail. -/
theorem unsetWatermark_twice {f : Fifo} (h : (unsetWatermark f).1 = .ok ())
    (h' : (unsetWatermark (unsetWatermark f).2).1 = .ok ()) :
    ∃ c, (unsetWatermark (unsetWatermark f).2).2 = { (unsetWatermark f).2 with board := c } ∧
      (unsetWatermark f).2.board.Accessed c ∧ c.chip = (unsetWatermark f).2.board.chip := by
  obtain ⟨b, hb, -, hchip⟩ := unsetWatermark_done h
  obtain ⟨c, hc, haccessed, hchip'⟩ := unsetWatermark_done h'
  rw [hc]
  refine ⟨c, ?_, haccessed, ?_⟩
  · rw [hb]
  · rw [hchip', hb]
    dsimp only
    rw [hchip, Chip.setMode_setMode]

/-! ## Changing the watermark -/

/-- The descriptor has zeroed buffers for exactly `w` samples, and the converter is set up for
them. -/
structure Sized (w : Nat) (f : Fifo) : Prop where
  buffers : f.buffers = some (.blank w)
  rawSize : f.rawSize = 3 * w + 1
  formattedSize : f.formattedSize = 4 * w
  samples : f.samples = Array.replicate w 0
  mode : f.board.chip.mode = .disabled
  watermark : f.board.chip.watermark.toNat = w

/-- The board on which a change of the watermark has turned the FIFO off and got both buffers,
before any register of the watermark was written. -/
structure Cleared (w : Nat) (f : Fifo) (c : Board) : Prop where
  reached : ∃ b, unsetWatermark f = (.ok (), { f with board := b, buffers := none }) ∧
    newBuffers w b = (.ok (.blank w), c)
  mode : c.chip.mode = .disabled
  requests : c.allocator.requests =
    (4 * w, true) :: (3 * w + 1, true) :: f.board.allocator.requests
  traffic : ∃ early, c.traffic = early ++ f.board.traffic ∧ (∃ x ∈ early, x.disables = true) ∧
    ∀ x ∈ early, x.programs = false

/-- Either no register of the watermark was written, or that was all that was done on the bus once
the FIFO was off and both buffers were granted. -/
def ProgramsLate (w : Nat) (f : Fifo) (b : Board) : Prop :=
  (∃ new, b.traffic = new ++ f.board.traffic ∧ ∀ x ∈ new, x.programs = false) ∨
    ∃ c late, Cleared w f c ∧ b.traffic = late ++ c.traffic ∧ ∀ x ∈ late, x.programs = true

theorem sized_blank {w : Nat} {f : Fifo} (h : f.buffers = some (.blank w))
    (hmode : f.board.chip.mode = .disabled) (hwatermark : f.board.chip.watermark.toNat = w) :
    Sized w f where
  buffers := h
  rawSize := by
    unfold Fifo.rawSize
    rw [h]
    exact Array.size_replicate
  formattedSize := by
    unfold Fifo.formattedSize
    rw [h, Nat.mul_comm]
    exact congrArg (· * Sample.wordBytes) Array.size_replicate
  samples := by
    unfold Fifo.samples
    rw [h]
    rfl
  mode := hmode
  watermark := hwatermark

/-- Turning the FIFO off writes no register of the watermark. -/
theorem unprogrammed_traffic {f : Fifo} {o : Outcome Cause Unit} {b : Board}
    (h : SetFieldEnds .fifoMode FifoMode.disabled.code f.board (o, b)) :
    ∃ new, b.traffic = new ++ f.board.traffic ∧ ∀ x ∈ new, x.programs = false := by
  obtain ⟨new, htraffic, hnew⟩ := h.traffic
  refine ⟨new, htraffic, fun x hx => ?_⟩
  rcases hnew x hx with ⟨r, rfl⟩ | ⟨done, rfl⟩ <;> rfl

theorem disables_traffic {b c : Board}
    (h : SetFieldEnds .fifoMode FifoMode.disabled.code b (.ok (), c)) :
    ∃ new, c.traffic = new ++ b.traffic ∧ ∃ x ∈ new, x.disables = true := by
  cases h with
  | set h =>
    refine ⟨_, h.traffic, _, List.mem_cons_self, ?_⟩
    unfold BusAccess.disables
    dsimp only
    rw [Field.get_put]
    decide

theorem cleared {w : Nat} (hw : w ≤ fifoDepth) {f : Fifo} {b c : Board}
    (hoff : Converter.setFifoMode .disabled f.board = (.ok (), b))
    (hnew : newBuffers w b = (.ok (.blank w), c)) : Cleared w f c := by
  have hmode : SetFieldEnds .fifoMode FifoMode.disabled.code f.board (.ok (), b) :=
    hoff ▸ Converter.setFifoMode_effect .disabled f.board
  have hafter := newBuffers_after hw hnew
  have htraffic : c.traffic = b.traffic := hafter.traffic
  constructor
  · refine ⟨b, ?_, hnew⟩
    rw [unsetWatermark_eq, hoff]
  · rw [hafter.chip, hmode.done]
    exact Chip.mode_setMode .disabled _
  · rw [requests_newBuffers hnew, (setFifoMode_accessed hoff).rest]
  · obtain ⟨early, hearly, hunprogrammed⟩ := unprogrammed_traffic hmode
    obtain ⟨early', hearly', hdisables⟩ := disables_traffic hmode
    cases List.append_cancel_right (hearly.symm.trans hearly')
    exact ⟨early, htraffic.trans hearly, hdisables, hunprogrammed⟩

/-- Programming the watermark writes its registers and does nothing else on the bus. -/
theorem programs_traffic {v : UInt16} {o : Outcome Cause Unit} {b c : Board}
    (h : SetWideEnds .watermark v b (o, c)) :
    ∃ late, c.traffic = late ++ b.traffic ∧ ∀ x ∈ late, x.programs = true := by
  have hlow : ∀ v done, (BusAccess.write WideField.watermark.low v done).programs = true :=
    fun _ _ => rfl
  have hhigh : ∀ v done, (BusAccess.write WideField.watermark.high v done).programs = true :=
    fun _ _ => rfl
  cases h with
  | lowUnwritten h => exact ⟨_, h.traffic, by simp [hlow]⟩
  | highUnwritten h => exact ⟨_, h.traffic, by simp [hlow, hhigh]⟩
  | set h => exact ⟨_, h.traffic, by simp [hlow, hhigh]⟩

/-- However a change of the watermark ends, its registers were written last. -/
theorem SetWatermarkRuns.programsLate {w : Nat} (h1 : 1 ≤ w) (h2 : w ≤ fifoDepth) {f g : Fifo}
    {o : Outcome Cause Unit} (h : SetWatermarkRuns w f (o, g)) : ProgramsLate w f g.board := by
  have hmode := Converter.setFifoMode_effect .disabled f.board
  cases h with
  | undisabled hoff => exact .inl (unprogrammed_traffic (hoff ▸ hmode))
  | noMemory hoff hnew =>
    obtain ⟨new, htraffic, hunprogrammed⟩ := unprogrammed_traffic (hoff ▸ hmode)
    exact .inl ⟨new, (newBuffers_after h2 hnew).traffic.trans htraffic, hunprogrammed⟩
  | @unprogrammed _ _ c _ hoff hnew hset =>
    obtain ⟨late, htraffic, hlate⟩ := programs_traffic (hset ▸ setWatermark_effect h1 h2 c)
    exact .inr ⟨c, late, cleared h2 hoff hnew, htraffic, hlate⟩
  | @done _ c _ _ hoff hnew hset =>
    obtain ⟨late, htraffic, hlate⟩ := programs_traffic (hset ▸ setWatermark_effect h1 h2 c)
    exact .inr ⟨c, late, cleared h2 hoff hnew, htraffic, hlate⟩

/-- A change of the watermark sizes the descriptor, or it fails and leaves no buffers. -/
theorem SetWatermarkEnds.whole {w : Nat} (h1 : 1 ≤ w) (h2 : w ≤ fifoDepth) {f g : Fifo}
    (hlive : f.live = true) {o : Outcome Cause Unit} (h : SetWatermarkEnds w f (o, g)) :
    (o = .ok () ∧ Sized w g) ∨
      ((∃ e, o = .error (.bus e)) ∨ o = .error .outOfMemory) ∧ g.buffers = none := by
  have hends := h
  cases h with
  | refused h =>
    rw [hlive] at h
    simp at h
    omega
  | undisabled hoff =>
    cases hoff with
    | unread _ => exact .inr ⟨.inl ⟨_, rfl⟩, rfl⟩
    | unwritten _ => exact .inr ⟨.inl ⟨_, rfl⟩, rfl⟩
  | noMemory _ _ => exact .inr ⟨.inr rfl, rfl⟩
  | unprogrammed _ _ hset =>
    cases hset with
    | lowUnwritten _ => exact .inr ⟨.inl ⟨_, rfl⟩, rfl⟩
    | highUnwritten _ => exact .inr ⟨.inl ⟨_, rfl⟩, rfl⟩
  | @done _ _ d m _ _ _ _ hset =>
    refine .inl ⟨rfl, sized_blank rfl hends.mode ?_⟩
    change d.chip.watermark.toNat = w
    rw [hset.done]
    exact Chip.watermark_setWide h2 _

theorem setWatermark_whole {w : Nat} {f : Fifo} (hlive : f.live = true) (h1 : 1 ≤ w)
    (h2 : w ≤ fifoDepth) :
    ∃ o g, setWatermark w f = (o, g) ∧
      (o = .ok () ∧ Sized w g ∨
        ((∃ e, o = .error (.bus e)) ∨ o = .error .outOfMemory) ∧ g.buffers = none) ∧
      (f.board.Healthy → o = .ok ()) ∧ g = { f with board := g.board, buffers := g.buffers } ∧
      ProgramsLate w f g.board := by
  have hruns := setWatermark_runs hlive h1 h2
  rcases hrun : setWatermark w f with ⟨o, g⟩
  rw [hrun] at hruns
  refine ⟨o, g, rfl, (hruns.ends h1 h2).whole h1 h2 hlive, fun hhealthy => ?_, ?_,
    hruns.programsLate h1 h2⟩
  · obtain ⟨c, hok, -⟩ := setWatermark_healthy hlive hhealthy h1 h2
    exact congrArg Prod.fst (hrun.symm.trans hok)
  · cases hruns with
    | undisabled _ => rfl
    | noMemory _ _ => rfl
    | unprogrammed _ _ _ => rfl
    | done _ _ _ => rfl

/-- A change of the watermark is atomic, for every descriptor, every schedule of failures and every
allocator. If the descriptor is finalised or the converter has no such watermark, nothing happens.
Otherwise either the descriptor is sized for the watermark and the converter programmed for it, or
the bus or the allocator has failed and there are no buffers; and the registers of the watermark
are written only after the FIFO was turned off and both buffers were granted. Giving the watermark
up always ends without buffers, and changes nothing more the second time. -/
theorem setWatermark_atomic (w : Nat) (f : Fifo) :
    (f.live = false ∨ w < 1 ∨ 16384 < w → setWatermark w f = (.error .invalidArgument, f)) ∧
    (f.live = true → 1 ≤ w → w ≤ 16384 →
      ∃ o g, setWatermark w f = (o, g) ∧
        (o = .ok () ∧ Sized w g ∨
          ((∃ e, o = .error (.bus e)) ∨ o = .error .outOfMemory) ∧ g.buffers = none) ∧
        (f.board.Healthy → o = .ok ()) ∧ g = { f with board := g.board, buffers := g.buffers } ∧
        ProgramsLate w f g.board) ∧
    (unsetWatermark f).2.buffers = none ∧
    (f.board.Reliable →
      (unsetWatermark f).1 = .ok () ∧ (unsetWatermark (unsetWatermark f).2).1 = .ok ()) ∧
    ((unsetWatermark f).1 = .ok () → (unsetWatermark (unsetWatermark f).2).1 = .ok () →
      ∃ c, (unsetWatermark (unsetWatermark f).2).2 = { (unsetWatermark f).2 with board := c } ∧
        (unsetWatermark f).2.board.Accessed c ∧ c.chip = (unsetWatermark f).2.board.chip) := by
  refine ⟨setWatermark_refused, setWatermark_whole, unsetWatermark_buffers f, fun h => ?_,
    unsetWatermark_twice⟩
  obtain ⟨hfirst, hreliable⟩ := unsetWatermark_reliable h
  exact ⟨hfirst, (unsetWatermark_reliable hreliable).1⟩

/-- A descriptor with buffers for two samples is given buffers for three; when the write of the
second register of the watermark fails it has none, though the FIFO was off and memory granted. -/
theorem setWatermark_atomic_three :
    let f : Fifo := { board := {}, buffers := some (.blank 2) }
    let torn : Fifo := { f with board := { faults := {
      planned := fun k _ => if k = 3 then some 7 else none } } }
    setWatermark 0 f = (.error .invalidArgument, f) ∧
    (∃ g, setWatermark 3 f = (.ok (), g) ∧ Sized 3 g) ∧
    (∃ e g c late, setWatermark 3 torn = (.error (.bus e), g) ∧ g.buffers = none ∧
      Cleared 3 torn c ∧ g.board.traffic = late ++ c.traffic) ∧
    (∃ c, (unsetWatermark (unsetWatermark f).2).2 = { (unsetWatermark f).2 with board := c } ∧
      c.chip = (unsetWatermark f).2.board.chip) := by
  intro f torn
  have hhealthy : f.board.Healthy := Board.healthy_default rfl rfl
  obtain ⟨-, hwhole, -, hunset, htwice⟩ := setWatermark_atomic 3 f
  obtain ⟨-, htorn, -⟩ := setWatermark_atomic 3 torn
  refine ⟨(setWatermark_atomic 0 f).1 (.inr (.inl (by decide))), ?_, ?_, ?_⟩
  · obtain ⟨o, g, hrun, hends, hok, -, -⟩ := hwhole rfl (by decide) (by decide)
    cases hok hhealthy
    rcases hends with ⟨-, hsized⟩ | ⟨⟨e, he⟩ | he, -⟩
    · exact ⟨g, hrun, hsized⟩
    · cases he
    · cases he
  · obtain ⟨o, g, hrun, hends, -, -, hlate⟩ := htorn rfl (by decide) (by decide)
    have hfailed : (setWatermark 3 torn).1 = .error (.bus (.code 7)) ∧
        (setWatermark 3 torn).2.board.traffic.any BusAccess.programs = true := by decide +kernel
    rw [hrun] at hfailed
    obtain ⟨rfl, hwritten⟩ := hfailed
    rcases hlate with ⟨new, htraffic, hnone⟩ | ⟨c, late, hcleared, htraffic, -⟩
    · obtain ⟨x, hx, hprograms⟩ := List.any_eq_true.mp hwritten
      rw [htraffic, show torn.board.traffic = [] from rfl, List.append_nil] at hx
      exact nomatch (hnone x hx).symm.trans hprograms
    · rcases hends with ⟨he, -⟩ | ⟨-, hnone⟩
      · cases he
      · exact ⟨_, g, c, late, hrun, hnone, hcleared, htraffic⟩
  · obtain ⟨hfirst, hsecond⟩ := hunset hhealthy.accesses
    obtain ⟨c, hc, -, hchip⟩ := htwice hfirst hsecond
    exact ⟨c, hc, hchip⟩

end Fifo

end AdcCapture
