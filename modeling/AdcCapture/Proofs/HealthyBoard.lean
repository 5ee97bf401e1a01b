/-
  Calls on a board on which nothing fails from now on: no access to the converter, and no
  reservation of a size that a buffer can have. Every access succeeds and does to the converter
  what its name says, new buffers are granted (`Board.Gives`), and so every watermark that the
  converter can have can be set, whatever the descriptor was left with.
-/
import AdcCapture.Proofs.ReliableBus
import AdcCapture.Proofs.FifoCalls

namespace AdcCapture

/-- The code of a watermark that the converter can have. -/
theorem watermarkCode_toNat {w : Nat} (h : w ≤ fifoDepth) : (UInt16.ofNat w).toNat = w := by
  have hdepth : fifoDepth = 16384 := rfl
  exact UInt16.toNat_ofNat_of_lt' (by unfold UInt16.size; omega)

/-- A watermark that the converter can have is programmed without a further check. -/
theorem Converter.setWatermark_eq {w : Nat} (h1 : 1 ≤ w) (h2 : w ≤ fifoDepth) :
    setWatermark (UInt16.ofNat w) = setWide .watermark (UInt16.ofNat w) := by
  have hval := watermarkCode_toNat h2
  have hzero : UInt16.ofNat w ≠ 0 := by
    intro he
    rw [he] at hval
    exact absurd hval (by change 0 ≠ w; omega)
  unfold setWatermark
  exact if_neg (not_or.mpr ⟨hzero, by rw [hval]; omega⟩)

/-! ## Memory -/

namespace Allocator

/-- From now on no reservation is refused that a pair of buffers can need. -/
def Willing (a : Allocator) : Prop :=
  ∀ k bytes, a.requests.length ≤ k → bytes ≤ fifoDepth * Sample.wordBytes → a.grants k bytes = true

/-- An allocator without a limit of its own grants every buffer that the converter allows. -/
theorem willing_default : (default : Allocator).Willing := by
  intro k bytes _ hbytes
  have hlimit : fifoDepth * Sample.wordBytes < 1 <<< 47 := by decide
  exact decide_eq_true (Nat.lt_of_le_of_lt hbytes hlimit)

/-- The allocator after a reservation that was granted. -/
def granted (bytes : Nat) (a : Allocator) : Allocator :=
  { a with requests := (bytes, true) :: a.requests }

namespace Willing

variable {a : Allocator} (h : a.Willing)
include h

theorem granted (bytes : Nat) : (a.granted bytes).Willing :=
  fun k n hk hn => h k n (Nat.le_of_succ_le hk) hn

theorem reserve {bytes : Nat} (hbytes : bytes ≤ fifoDepth * Sample.wordBytes) :
    reserve bytes a = (.ok (), a.granted bytes) := by
  have hdepth : fifoDepth * Sample.wordBytes = 65536 := rfl
  have hlimit : limited none a.requests.length bytes = true := by
    change decide (bytes < 1 <<< 47) = true
    exact decide_eq_true (by omega)
  have hgranted : (decide (bytes < 1 <<< 63) &&
      (if a.waived then limited none else a.grants) a.requests.length bytes) = true := by
    rw [decide_eq_true (by omega), Bool.true_and]
    split
    · exact hlimit
    · exact h _ bytes (Nat.le_refl _) hbytes
  unfold Allocator.reserve
  dsimp only
  rw [hgranted]
  rfl

theorem allocate {w : Nat} (hw : w ≤ fifoDepth) :
    Buffers.allocate w a =
      (.ok (.blank w), (a.granted (Sample.streamLength w)).granted (w * Sample.wordBytes)) := by
  have hraw : (Buffers.rawLength w : Outcome AllocError Nat) = .ok (Sample.streamLength w) :=
    if_pos (Buffers.streamLength_lt hw)
  have hwords : w * Sample.wordBytes ≤ fifoDepth * Sample.wordBytes := Nat.mul_le_mul_right _ hw
  have hstream : Sample.streamLength w ≤ fifoDepth * Sample.wordBytes := by
    have hdepth : fifoDepth = 16384 := rfl
    change 3 * w + 1 ≤ 65536
    omega
  unfold Buffers.allocate
  rw [hraw, Action.give_ok_bind, Action.bind_ok _ (h.reserve hstream),
    Action.bind_ok _ ((h.granted _).reserve hwords)]
  rfl

end Willing

end Allocator

/-! ## What a call gives -/

namespace Board

/-- From now on no access fails, and no reservation of a size that a buffer can have. -/
structure Healthy (b : Board) : Prop where
  accesses : ∀ k a, b.accesses ≤ k → b.faults.code? k a = none
  allocator : b.allocator.Willing

theorem healthy_default {b : Board} (hfaults : b.faults = {}) (hallocator : b.allocator = default) :
    b.Healthy where
  accesses k a _ := by
    rw [hfaults]
    rfl
  allocator := by
    rw [hallocator]
    exact Allocator.willing_default

variable {ε ε' α : Type}

/-- On this board the call gives this value, and leaves a healthy board with this converter. -/
def Gives (a : Action Board ε α) (b : Board) (v : α) (k : Chip) : Prop :=
  ∃ c, a b = (.ok v, c) ∧ c.Healthy ∧ c.chip = k

theorem Gives.mapError {a : Action Board ε α} {b : Board} {v : α} {k : Chip} (ha : Gives a b v k)
    (f : ε → ε') : Gives (a.mapError f) b v k := by
  obtain ⟨c, ha, hrest⟩ := ha
  refine ⟨c, ?_, hrest⟩
  unfold Action.mapError
  rw [ha]
  rfl

namespace Healthy

variable {b : Board} (h : b.Healthy)
include h

theorem reliable : b.Reliable := h.accesses

theorem after {c : Board} (hc : b.Accessed c) : c.Healthy where
  accesses := h.reliable.after hc
  allocator := by
    rw [hc.rest]
    exact h.allocator

/-- What a reliable board answers, a healthy board gives and stays healthy. -/
theorem gives {a : Action Board ε α} {v : α} {k : Chip} (ha : Answers a b v k) : Gives a b v k := by
  obtain ⟨c, ha, hc, hk⟩ := ha
  exact ⟨c, ha, h.after hc, hk⟩

theorem noted (e : Event) : ({ b with record := e :: b.record } : Board).Healthy :=
  h.after (.noted e b)

theorem written (a : UInt16) (v : UInt8) :
    ({ b with registers := b.registers.set a v } : Board).Healthy :=
  h.after ⟨Nat.le_refl _, rfl⟩

theorem readData (n : Nat) : Gives (Board.readData n) b (b.served n) b.chip :=
  h.gives (h.reliable.readData n)

theorem setWide {f : WideField} (v : UInt16) (hlow : Instruction.wired f.low = f.low)
    (hhigh : Instruction.wired f.high = f.high) :
    Gives (Converter.setWide f v) b () (b.chip.setWide f v) :=
  h.gives (h.reliable.setWide v hlow hhigh)

theorem setFifoMode (m : FifoMode) : Gives (Converter.setFifoMode m) b () (b.chip.setMode m) :=
  h.gives (h.reliable.setFifoMode m)

theorem fifoMode : Gives Converter.fifoMode b b.chip.mode b.chip := h.gives h.reliable.fifoMode

/-- Whether the status register shows the FIFO as full. -/
theorem fifoFull :
    Gives Converter.fifoFull b (b.visible Register.deviceStatus &&& Register.fifoFull ≠ 0)
      b.chip := h.gives h.reliable.fifoFull

theorem setWatermark {w : Nat} (h1 : 1 ≤ w) (h2 : w ≤ fifoDepth) :
    Gives (Converter.setWatermark (UInt16.ofNat w)) b ()
      (b.chip.setWide .watermark (UInt16.ofNat w)) := by
  rw [Converter.setWatermark_eq h1 h2]
  exact h.setWide _ (by decide) (by decide)

/-- Buffers of any size that the converter allows are granted, and are zeroed. -/
theorem newBuffers {w : Nat} (hw : w ≤ fifoDepth) :
    Gives (Fifo.newBuffers w) b (.blank w) b.chip := by
  have hwithin : Action.within allocation (Buffers.allocate w) b = _ :=
    Action.within_eq b (h.allocator.allocate hw)
  have hboth := (h.allocator.granted (Sample.streamLength w)).granted (w * Sample.wordBytes)
  exact ⟨_, Action.recover_ok _ hwithin _, ⟨h.accesses, hboth⟩, rfl⟩

end Healthy

end Board

/-! ## The watermark -/

namespace Fifo

variable {ε α : Type} {f : Fifo}

/-- A call that succeeds on the board of a descriptor succeeds on the descriptor. -/
theorem onBoard_gives {a : Action Board ε α} {v : α} {k : Chip} (h : Board.Gives a f.board v k) :
    ∃ c, onBoard a f = (.ok v, { f with board := c }) ∧ c.Healthy ∧ c.chip = k := by
  obtain ⟨c, hrun, hc, hk⟩ := h
  exact ⟨c, onBoard_eq hrun, hc, hk⟩

theorem unsetWatermark_healthy (h : f.board.Healthy) :
    ∃ c, unsetWatermark f = (.ok (), { f with board := c, buffers := none }) ∧ c.Healthy ∧
      c.chip = f.board.chip.setMode .disabled := by
  obtain ⟨c, hdisable, hc, hk⟩ := onBoard_gives (h.setFifoMode .disabled)
  exact ⟨c, Action.bind_ok _ (Action.attempt_ok _ hdisable) _, hc, hk⟩

/-- On a healthy board every watermark that the converter can have can be set, whatever the
descriptor was left with. -/
theorem setWatermark_healthy (hlive : f.live = true) (h : f.board.Healthy) {w : Nat} (h1 : 1 ≤ w)
    (h2 : w ≤ fifoDepth) :
    ∃ c, setWatermark w f = (.ok (), { f with board := c, buffers := some (.blank w) }) ∧
      c.Healthy ∧
      c.chip = (f.board.chip.setMode .disabled).setWide .watermark (UInt16.ofNat w) := by
  have hguard : (!f.live || decide (w < 1) || decide (fifoDepth < w)) = false := by
    rw [hlive, decide_eq_false (by omega), decide_eq_false (by omega)]
    rfl
  obtain ⟨c, hunset, hc, hk⟩ := unsetWatermark_healthy h
  obtain ⟨d, hnew, hd, hk'⟩ :=
    onBoard_gives (f := { f with board := c, buffers := none }) (hc.newBuffers h2)
  obtain ⟨e, hset, he, hk''⟩ :=
    onBoard_gives (f := { f with board := d, buffers := none }) (hd.setWatermark h1 h2)
  refine ⟨_, ?_, he.noted (.log (.watermarkSet w (Buffers.blank w).rawSize
    (Buffers.blank w).formattedSize)), ?_⟩
  · unfold setWatermark
    rw [Action.state_bind, hguard, if_neg Bool.false_ne_true, Action.bind_ok _ hunset,
      Action.bind_ok _ hnew, Action.bind_ok _ hset]
    rfl
  · refine hk''.trans ?_
    rw [hk', hk]

end Fifo

end AdcCapture
