/-
  Starting a driver with an argument out of range, on a board on which no access fails. The
  arguments are looked at late: the converter is reset and its product number read before the
  watermark is checked, and the watermark is programmed before the index of the pin is
  (`Driver.init_refused` has every access). So such a start is refused, or it ends for lack of
  memory, but not before any side effect (`Driver.init_not_untouched`). What a call does on such a
  board is told in full by `Board.Performs`: the value, the accesses, and the converter afterwards.
-/
import AdcCapture.Proofs.PlatformCalls
import AdcCapture.Proofs.WatermarkChange

namespace AdcCapture

/-- Whether the access wrote a register, or tried to. -/
def BusAccess.isWrite : BusAccess → Bool
  | write _ _ _ => true
  | _ => false

namespace Chip

/-- The accesses that check the product number of this converter, the latest first: the reset and
the two bytes of the number. -/
def identification (k : Chip) : List BusAccess :=
  [.read Register.productIdLow (some (k.registers.get Register.productIdLow)),
    .read Register.productIdHigh (some (k.registers.get Register.productIdHigh)),
    .write Register.interfaceConfigA Register.softReset true]

/-- The accesses that turn the FIFO of this converter off, the latest first. -/
def switchOff (k : Chip) : List BusAccess :=
  [.write Register.generalConfig
      (Field.fifoMode.put FifoMode.disabled.code (k.registers.get Register.generalConfig)) true,
    .read Register.generalConfig (some (k.registers.get Register.generalConfig))]

/-- The converter after its reset. -/
def reset (k : Chip) : Chip := k.write Register.interfaceConfigA Register.softReset

/-- The converter with its FIFO off and the watermark programmed. -/
def sized (w : Nat) (k : Chip) : Chip :=
  (k.setMode .disabled).setWide .watermark (UInt16.ofNat w)

end Chip

/-- The accesses that program a watermark, the latest first. -/
def programming (w : Nat) : List BusAccess :=
  [.write Register.watermarkHigh (WideField.watermark.highByte (UInt16.ofNat w)) true,
    .write Register.watermarkLow (WideField.watermark.lowByte (UInt16.ofNat w)) true]

/-! ## Calls with all their accesses -/

namespace Board

variable {ε α β : Type}

/-- On this board the call gives this value by these accesses, the latest first, and leaves this
converter. -/
def Performs (a : Action Board ε α) (b : Board) (v : α) (xs : List BusAccess) (k : Chip) : Prop :=
  ∃ c, a b = (.ok v, c) ∧ b.Accessed c ∧ b.After xs k c

theorem Performs.bind {a : Action Board ε α} {b : Board} {v : α} {w : β} {x y : List BusAccess}
    {k l : Chip} (ha : Performs a b v x k) {f : α → Action Board ε β}
    (hf : ∀ c : Board, b.Accessed c → c.chip = k → Performs (f v) c w y l) :
    Performs (a >>= f) b w (y ++ x) l := by
  obtain ⟨c, ha, hc, hx⟩ := ha
  obtain ⟨d, hd, hrest, hy⟩ := hf c hc hx.chip
  exact ⟨d, (Action.bind_ok _ ha f).trans hd, hc.trans hrest, hx.trans hy⟩

namespace Reliable

variable {b : Board} (h : b.Reliable)
include h

/-- A register other than the one for the status is read as it is. -/
theorem read_performs {a : UInt16} (ha : Instruction.wired a = a)
    (hs : a ≠ Register.deviceStatus) :
    Performs (Converter.read a) b (b.chip.registers.get a)
      [.read a (some (b.chip.registers.get a))] b.chip := by
  obtain ⟨c, hread, hc, -⟩ := h.readStored ha hs
  have hends := Converter.read_ends ha b
  rw [visible_of_ne b hs, hread] at hends
  rcases hends with ⟨_, hc', hafter⟩ | ⟨_, _, hfailed, -⟩
  · cases hc'
    exact ⟨c, hread, hc, hafter⟩
  · cases hfailed

theorem write_performs {a : UInt16} (v : UInt8) (ha : Instruction.wired a = a) :
    Performs (Converter.write a v) b () [.write a v true] (b.chip.write a v) := by
  obtain ⟨c, hwrite, hc, -⟩ := h.write v ha
  have hends := Converter.write_ends ha v b
  rw [hwrite] at hends
  rcases hends with ⟨_, hc', hafter⟩ | ⟨_, _, hfailed, -⟩
  · cases hc'
    exact ⟨c, hwrite, hc, hafter⟩
  · cases hfailed

theorem switchOff_performs :
    Performs (Converter.setFifoMode .disabled) b () b.chip.switchOff
      (b.chip.setMode .disabled) := by
  obtain ⟨c, hoff, hc, -⟩ := h.setFifoMode .disabled
  have hends := Converter.setFifoMode_effect .disabled b
  rw [hoff] at hends
  cases hends with
  | set hafter => exact ⟨c, hoff, hc, hafter⟩

theorem setWatermark_performs {w : Nat} (h1 : 1 ≤ w) (h2 : w ≤ fifoDepth) :
    Performs (Converter.setWatermark (UInt16.ofNat w)) b () (programming w)
      (b.chip.setWide .watermark (UInt16.ofNat w)) := by
  rw [Converter.setWatermark_eq h1 h2]
  refine (h.write_performs _ (by decide)).bind (y := [_]) fun c hc hk => ?_
  have hhigh := (h.after hc).write_performs (WideField.watermark.highByte (UInt16.ofNat w))
    (show Instruction.wired WideField.watermark.high = _ by decide)
  rw [hk] at hhigh
  exact hhigh

theorem getWide_performs {f : WideField} (hf : f.Placed) (hlow : f.low ≠ Register.deviceStatus)
    (hhigh : f.high ≠ Register.deviceStatus) :
    Performs (Converter.getWide f) b (b.chip.wide f)
      [.read f.low (some (b.chip.registers.get f.low)),
        .read f.high (some (b.chip.registers.get f.high))] b.chip := by
  refine (h.read_performs hf.2.1 hhigh).bind (y := [_]) fun c hc hk => ?_
  obtain ⟨d, hread, hd, hafter⟩ := (h.after hc).read_performs hf.1 hlow
  rw [hk] at hread hafter
  exact ⟨d, Action.bind_ok _ hread _, hd, hafter⟩

/-- A converter with the right product number is reset, and passes. -/
theorem init_performs (hid : b.chip.wide .productId = Register.productId) :
    Performs Converter.init b () b.chip.identification b.chip.reset := by
  -- the reset leaves the product number alone
  have hlow : b.chip.reset.registers.get WideField.productId.low =
      b.chip.registers.get WideField.productId.low := RegisterFile.get_set_of_ne _ _ (by decide)
  have hhigh : b.chip.reset.registers.get WideField.productId.high =
      b.chip.registers.get WideField.productId.high := RegisterFile.get_set_of_ne _ _ (by decide)
  have hid' : b.chip.reset.wide .productId = Register.productId := by
    unfold Chip.wide
    rw [hlow, hhigh]
    exact hid
  have hreset : Performs (Converter.write Register.interfaceConfigA Register.softReset) b () _
    b.chip.reset := h.write_performs _ (by decide)
  refine hreset.bind (y := [_, _]) fun c hc hk => ?_
  obtain ⟨d, hread, hd, hafter⟩ := (h.after hc).getWide_performs (f := .productId) (by decide)
    (by decide) (by decide)
  rw [hk, hid'] at hread
  rw [hk, hlow, hhigh] at hafter
  exact ⟨d, Action.bind_ok _ hread _, hd, hafter⟩

end Reliable

end Board

/-! ## Changes of the watermark, whatever the allocator -/

namespace Fifo

variable {f : Fifo} {w : Nat} {a : Allocator}

theorem newBuffers_granted {b : Board} {v : Buffers}
    (h : Buffers.allocate w b.allocator = (.ok v, a)) :
    newBuffers w b = (.ok v, { b with allocator := a }) :=
  Action.recover_ok _ (Action.within_eq b h) _

theorem newBuffers_denied {b : Board} {e : AllocError}
    (h : Buffers.allocate w b.allocator = (.error e, a)) :
    newBuffers w b =
      (.error .outOfMemory, ({ b with allocator := a } : Board).noted (.noMemory w)) :=
  Action.recover_error _ (Action.within_eq b h) _

theorem unsetWatermark_performs (h : f.board.Reliable) :
    ∃ c, unsetWatermark f = (.ok (), { f with board := c, buffers := none }) ∧
      f.board.Accessed c ∧
      f.board.After f.board.chip.switchOff (f.board.chip.setMode .disabled) c := by
  obtain ⟨c, hoff, hc⟩ := h.switchOff_performs
  refine ⟨c, ?_, hc⟩
  rw [unsetWatermark_eq, hoff]

theorem setWatermark_proper (hlive : f.live = true) (h1 : 1 ≤ w) (h2 : w ≤ fifoDepth) :
    (!f.live || decide (w < 1) || decide (fifoDepth < w)) = false := by
  rw [hlive, decide_eq_false (by omega), decide_eq_false (by omega)]
  rfl

/-- With the memory for it, a watermark that the converter can have is programmed. -/
theorem setWatermark_granted (hlive : f.live = true) (h1 : 1 ≤ w) (h2 : w ≤ fifoDepth)
    (h : f.board.Reliable) {v : Buffers} (hv : Buffers.allocate w f.board.allocator = (.ok v, a)) :
    ∃ c, setWatermark w f = (.ok (), { f with board := c, buffers := some (.blank w) }) ∧
      c.Reliable ∧ c.calls = f.board.calls ∧ c.allocator = a ∧
      f.board.After (programming w ++ f.board.chip.switchOff) (f.board.chip.sized w) c := by
  obtain ⟨c, hunset, hc, hoff⟩ := unsetWatermark_performs h
  rw [← hc.allocator] at hv
  have hnew := onBoard_eq (f := { f with board := c, buffers := none }) (newBuffers_granted hv)
  have hreliable : ({ c with allocator := a } : Board).Reliable := fun k x => h.after hc k x
  obtain ⟨d, hset, hd, hprogram⟩ := hreliable.setWatermark_performs h1 h2
  rw [show ({ c with allocator := a } : Board).chip = _ from hoff.chip] at hprogram
  have hon := onBoard_eq (f := { f with board := { c with allocator := a }, buffers := none }) hset
  refine ⟨d.noted (.watermarkSet w (Buffers.blank w).rawSize (Buffers.blank w).formattedSize), ?_,
    fun k x => hreliable.after hd k x, ?_, ?_, hprogram.chip, ?_⟩
  · unfold setWatermark
    rw [Action.state_bind, setWatermark_proper hlive h1 h2, if_neg Bool.false_ne_true,
      Action.bind_ok _ hunset, Action.bind_ok _ hnew, Buffers.allocate_ok hv, Action.bind_ok _ hon]
    rfl
  · exact hd.calls.trans hc.calls
  · exact hd.allocator
  · rw [List.append_assoc, ← hoff.traffic]
    exact (Board.traffic_cons_none rfl).trans hprogram.traffic

/-- Without the memory for it, a change of the watermark turns the FIFO off and fails. -/
theorem setWatermark_denied (hlive : f.live = true) (h1 : 1 ≤ w) (h2 : w ≤ fifoDepth)
    (h : f.board.Reliable) {e : AllocError}
    (he : Buffers.allocate w f.board.allocator = (.error e, a)) :
    ∃ c, setWatermark w f = (.error .outOfMemory, { f with board := c, buffers := none }) ∧
      c.calls = f.board.calls ∧ c.allocator = a ∧
      f.board.After f.board.chip.switchOff (f.board.chip.setMode .disabled) c := by
  obtain ⟨c, hunset, hc, hoff⟩ := unsetWatermark_performs h
  rw [← hc.allocator] at he
  have hnew := onBoard_eq (f := { f with board := c, buffers := none }) (newBuffers_denied he)
  refine ⟨({ c with allocator := a } : Board).noted (.noMemory w), ?_, hc.calls, rfl,
    hoff.chip, (Board.traffic_cons_none rfl).trans hoff.traffic⟩
  unfold setWatermark
  rw [Action.state_bind, setWatermark_proper hlive h1 h2, if_neg Bool.false_ne_true,
    Action.bind_ok _ hunset, Action.bind_error _ hnew]

end Fifo

/-! ## Starting a driver -/

namespace Driver

variable {c : Config} {b : Board}

/-- The check of the converter, as the first step of a start. -/
theorem bringUp_identified (h : b.Reliable) (hid : b.chip.wide .productId = Register.productId) :
    ∃ b', Fifo.onBoard Converter.init { board := b } = (.ok (), { board := b' }) ∧ b'.Reliable ∧
      b'.calls = b.calls ∧ b'.allocator = b.allocator ∧
      b.After b.chip.identification b.chip.reset b' := by
  obtain ⟨b', hinit, hb, hafter⟩ := h.init_performs hid
  exact ⟨b', Fifo.onBoard_eq hinit, h.after hb, hb.calls, hb.allocator, hafter⟩

theorem init_of_error {e : Cause} {f : Fifo} (h : bringUp c { board := b } = (.error e, f)) :
    init c b = (.error e, f.board) := by
  unfold init
  rw [h]

/-- A watermark that the converter does not have is found out once the converter was reset. -/
theorem init_unsized (h : b.Reliable) (hid : b.chip.wide .productId = Register.productId)
    (hw : c.watermark < 1 ∨ fifoDepth < c.watermark) :
    ∃ b', init c b = (.error .invalidArgument, b') ∧ b'.calls = b.calls ∧
      b'.allocator = b.allocator ∧ b.After b.chip.identification b.chip.reset b' := by
  obtain ⟨b', hcheck, -, hrest⟩ := bringUp_identified h hid
  have hrefused := Fifo.setWatermark_refused (f := { board := b' }) (.inr hw)
  refine ⟨b', init_of_error (f := ({ board := b' } : Fifo).finalise) ?_, hrest⟩
  unfold bringUp
  rw [Action.bind_ok _ hcheck]
  exact Action.bind_error _ (Action.recover_error _ hrefused _) _

/-- Without the memory for the buffers the index of the pin is not looked at. -/
theorem init_denied (h : b.Reliable) (hid : b.chip.wide .productId = Register.productId)
    (h1 : 1 ≤ c.watermark) (h2 : c.watermark ≤ fifoDepth) {x : AllocError} {a : Allocator}
    (ha : Buffers.allocate c.watermark b.allocator = (.error x, a)) :
    ∃ b', init c b = (.error .outOfMemory, b') ∧ b'.calls = b.calls ∧ b'.allocator = a ∧
      b.After (b.chip.reset.switchOff ++ b.chip.identification) (b.chip.reset.setMode .disabled)
        b' := by
  obtain ⟨b₁, hcheck, hb₁, hcalls₁, hmemory₁, hafter₁⟩ := bringUp_identified h hid
  rw [← hmemory₁] at ha
  obtain ⟨b₂, hdenied, hcalls₂, hmemory₂, hafter₂⟩ :=
    Fifo.setWatermark_denied (f := { board := b₁ }) rfl h1 h2 hb₁ ha
  rw [hafter₁.chip] at hafter₂
  refine ⟨b₂, init_of_error (f := ({ board := b₂ } : Fifo).finalise) ?_, hcalls₂.trans hcalls₁,
    hmemory₂, hafter₁.trans hafter₂⟩
  unfold bringUp
  rw [Action.bind_ok _ hcheck]
  exact Action.bind_error _ (Action.recover_error _ hdenied _) _

/-- A pin that the converter does not have is found out once the watermark was programmed, and the
watermark is given up again. -/
theorem init_unpinned (h : b.Reliable) (hid : b.chip.wide .productId = Register.productId)
    (h1 : 1 ≤ c.watermark) (h2 : c.watermark ≤ fifoDepth) (hpin : 4 ≤ c.fifoFullPin)
    {v : Buffers} {a : Allocator} (ha : Buffers.allocate c.watermark b.allocator = (.ok v, a)) :
    ∃ b', init c b = (.error .invalidArgument, b') ∧ b'.calls = b.calls ∧ b'.allocator = a ∧
      b.After ((b.chip.reset.sized c.watermark).switchOff ++ (programming c.watermark ++
          b.chip.reset.switchOff) ++ b.chip.identification)
        ((b.chip.reset.sized c.watermark).setMode .disabled) b' := by
  obtain ⟨b₁, hcheck, hb₁, hcalls₁, hmemory₁, hafter₁⟩ := bringUp_identified h hid
  rw [← hmemory₁] at ha
  obtain ⟨b₂, hset, hb₂, hcalls₂, hmemory₂, hafter₂⟩ :=
    Fifo.setWatermark_granted (f := { board := b₁ }) rfl h1 h2 hb₁ ha
  rw [hafter₁.chip] at hafter₂
  have hnone : Pin.ofIndex? c.fifoFullPin = none := List.getElem?_eq_none hpin
  have hrefused : Fifo.registerIrq c.fifoFullPin
      { board := b₂, buffers := some (.blank c.watermark) } =
        (.error .invalidArgument, { board := b₂, buffers := some (.blank c.watermark) }) := by
    unfold Fifo.registerIrq
    rw [Action.state_bind, hnone]
    rfl
  obtain ⟨b₃, hunset, hb₃, hafter₃⟩ := Fifo.unsetWatermark_performs
    (f := { board := b₂, buffers := some (.blank c.watermark) }) hb₂
  rw [hafter₂.chip] at hafter₃
  refine ⟨b₃, init_of_error (f := ({ board := b₃ } : Fifo).finalise) ?_,
    hb₃.calls.trans (hcalls₂.trans hcalls₁), hb₃.allocator.trans hmemory₂, ?_⟩
  · unfold bringUp
    rw [Action.bind_ok _ hcheck, Action.bind_ok _ (Action.recover_ok _ hset _)]
    refine Action.bind_error _ ((Action.recover_error _ hrefused _).trans ?_) _
    exact Action.bind_ok _ (Action.attempt_ok _ hunset) _
  · rw [List.append_assoc]
    exact hafter₁.trans (hafter₂.trans hafter₃)

theorem allocate_ends {w : Nat} (hw : w ≤ fifoDepth) (a : Allocator) :
    (∃ v, (Buffers.allocate w a).1 = .ok v) ∨ ∃ x, (Buffers.allocate w a).1 = .error x := by
  have hfits := Buffers.streamLength_lt hw
  have hcases := Buffers.allocate_cases w a
  rcases hrun : Buffers.allocate w a with ⟨o, a'⟩
  rw [hrun] at hcases
  cases hcases with
  | overflow h => exact absurd hfits (Nat.not_lt.mpr h)
  | streamRefused h => exact .inr ⟨_, rfl⟩
  | wordsRefused h => exact .inr ⟨_, rfl⟩
  | granted h _ => exact .inl ⟨_, rfl⟩

/-- How a start with an argument out of range ends, on a converter with the right product number
and a bus that does not fail. The platform is never called. A watermark that the converter does not
have is refused after the reset and the check of the product number, with nothing reserved. A pin
that it does not have is refused after the watermark was programmed for new buffers and the FIFO
turned off again; without the memory for them the start fails for that. -/
theorem init_refused (h : b.Reliable) (hid : b.chip.wide .productId = Register.productId) :
    (c.watermark < 1 ∨ 16384 < c.watermark →
      ∃ b', init c b = (.error .invalidArgument, b') ∧ b'.calls = b.calls ∧
        b'.allocator = b.allocator ∧ b.After b.chip.identification b.chip.reset b') ∧
    (1 ≤ c.watermark → c.watermark ≤ 16384 → 4 ≤ c.fifoFullPin →
      ∃ e b', init c b = (.error e, b') ∧ b'.calls = b.calls ∧
        b'.allocator = (Buffers.allocate c.watermark b.allocator).2 ∧
        ((∃ v, (Buffers.allocate c.watermark b.allocator).1 = .ok v) ∧ e = .invalidArgument ∧
            b.After ((b.chip.reset.sized c.watermark).switchOff ++ (programming c.watermark ++
                b.chip.reset.switchOff) ++ b.chip.identification)
              ((b.chip.reset.sized c.watermark).setMode .disabled) b' ∨
          (∃ x, (Buffers.allocate c.watermark b.allocator).1 = .error x) ∧ e = .outOfMemory ∧
            b.After (b.chip.reset.switchOff ++ b.chip.identification)
              (b.chip.reset.setMode .disabled) b')) := by
  refine ⟨init_unsized h hid, fun h1 h2 hpin => ?_⟩
  rcases allocate_ends h2 b.allocator with ⟨v, hv⟩ | ⟨x, hx⟩
  · obtain ⟨b', hinit, hcalls, hmemory, hafter⟩ := init_unpinned h hid h1 h2 hpin (Prod.ext hv rfl)
    exact ⟨_, b', hinit, hcalls, hmemory, .inl ⟨⟨v, hv⟩, rfl, hafter⟩⟩
  · obtain ⟨b', hinit, hcalls, hmemory, hafter⟩ := init_denied h hid h1 h2 (Prod.ext hx rfl)
    exact ⟨_, b', hinit, hcalls, hmemory, .inr ⟨⟨x, hx⟩, rfl, hafter⟩⟩

/-- A watermark of zero writes one register. A fifth pin writes five, and the memory for two buffers
is reserved; an allocator that grants nothing is asked once, and decides how the start ends. -/
theorem init_refused_late :
    let r := RegisterFile.empty.set Register.productIdLow 0x50
    let b : Board := { registers := r }
    let tight : Board := { registers := r, allocator := { grants := fun _ _ => false } }
    b.Reliable ∧ b.chip.wide .productId = Register.productId ∧
    (∃ b', init { watermark := 0 } b = (.error .invalidArgument, b') ∧ b'.calls = 0 ∧
      b'.allocator = b.allocator ∧ b'.traffic.countP BusAccess.isWrite = 1) ∧
    (∃ b', init { watermark := 16, fifoFullPin := 4 } b = (.error .invalidArgument, b') ∧
      b'.calls = 0 ∧ b'.allocator.requests = [(64, true), (49, true)] ∧
      b'.traffic.countP BusAccess.isWrite = 5) ∧
    ∃ b', init { watermark := 16, fifoFullPin := 4 } tight = (.error .outOfMemory, b') ∧
      b'.calls = 0 ∧ b'.allocator.requests = [(49, false)] ∧
      b'.traffic.countP BusAccess.isWrite = 2 := by
  intro r b tight
  have hid : b.chip.wide .productId = Register.productId := by decide +kernel
  have hreliable : b.Reliable := fun _ _ _ => rfl
  have hreliable' : tight.Reliable := fun _ _ _ => rfl
  have hgranted : (Buffers.allocate 16 b.allocator).1 = .ok (.blank 16) := by decide +kernel
  have hdenied : (Buffers.allocate 16 tight.allocator).1 = .error {} := by decide +kernel
  obtain ⟨b₁, hinit₁, hcalls₁, hmemory₁, hafter₁⟩ :=
    (init_refused (c := { watermark := 0 }) hreliable hid).1 (.inl (by decide))
  obtain ⟨e₂, b₂, hinit₂, hcalls₂, hmemory₂, hends₂⟩ :=
    (init_refused (c := { watermark := 16, fifoFullPin := 4 }) hreliable hid).2 (by decide)
      (by decide) (by decide)
  obtain ⟨e₃, b₃, hinit₃, hcalls₃, hmemory₃, hends₃⟩ :=
    (init_refused (c := { watermark := 16, fifoFullPin := 4 }) hreliable' hid).2 (by decide)
      (by decide) (by decide)
  refine ⟨hreliable, hid, ⟨b₁, hinit₁, hcalls₁, hmemory₁, ?_⟩, ?_, ?_⟩
  · rw [hafter₁.traffic]
    decide +kernel
  · rcases hends₂ with ⟨-, rfl, hafter⟩ | ⟨⟨x, hx⟩, -⟩
    · refine ⟨b₂, hinit₂, hcalls₂, ?_, ?_⟩
      · rw [hmemory₂]
        decide +kernel
      · rw [hafter.traffic]
        decide +kernel
    · cases hgranted.symm.trans hx
  · rcases hends₃ with ⟨⟨v, hv⟩, -⟩ | ⟨-, rfl, hafter⟩
    · cases hdenied.symm.trans hv
    · refine ⟨b₃, hinit₃, hcalls₃, ?_, ?_⟩
      · rw [hmemory₃]
        decide +kernel
      · rw [hafter.traffic]
        decide +kernel

/-- A start with an argument out of range is not refused before any side effect: it can write
registers and reserve memory, though no access fails and every reservation is granted. -/
theorem init_not_untouched :
    ¬ ∀ (c : Config) (b : Board),
      c.watermark < 1 ∨ 16384 < c.watermark ∨ 4 ≤ c.fifoFullPin → b.Reliable →
      b.chip.wide .productId = Register.productId →
      ∃ b', init c b = (.error .invalidArgument, b') ∧
        b'.traffic.countP BusAccess.isWrite = b.traffic.countP BusAccess.isWrite ∧
        b'.allocator.requests = b.allocator.requests ∧ b'.calls = b.calls := by
  intro huntouched
  let b : Board := { registers := RegisterFile.empty.set Register.productIdLow 0x50 }
  have hrun : (init { watermark := 16, fifoFullPin := 4 } b).2.traffic.countP BusAccess.isWrite ≠
      b.traffic.countP BusAccess.isWrite := by decide +kernel
  obtain ⟨b', hinit, hwrites, -⟩ := huntouched { watermark := 16, fifoFullPin := 4 } b
    (.inr (.inr (by decide))) (fun _ _ _ => rfl) (by decide +kernel)
  rw [hinit] at hrun
  exact hrun hwrites

end Driver

end AdcCapture
