/-
  The descriptor and the converter agree about the watermark. A change of the watermark gives the
  buffers back before it touches the registers, and takes new ones only after both are written, so
  a change that fails half way leaves no buffers; nothing else writes the two registers, unless it
  is foreign. So whenever there are buffers they are for the watermark that the registers hold, and
  an interrupt asks for as many bytes as the converter has to give (`run_watermark_agrees`).
-/
import AdcCapture.Proofs.PassageEffects

namespace AdcCapture

open Converter (SetFieldEnds)

/-! ## The watermark in the registers -/

/-- The watermark that the registers of the converter hold. -/
def Chip.watermark (k : Chip) : UInt16 :=
  WideField.watermark.join (k.registers.get Register.watermarkHigh)
    (k.registers.get Register.watermarkLow)

namespace Chip

/-- The registers of the watermark hold the same bytes. -/
structure SameWatermark (k l : Chip) : Prop where
  low : l.registers.get Register.watermarkLow = k.registers.get Register.watermarkLow
  high : l.registers.get Register.watermarkHigh = k.registers.get Register.watermarkHigh

theorem sameWatermark_setMode (m : FifoMode) (k : Chip) : k.SameWatermark (k.setMode m) :=
  ⟨RegisterFile.get_set_of_ne _ _ (by decide), RegisterFile.get_set_of_ne _ _ (by decide)⟩

theorem sameWatermark_of_eq {k l : Chip} (h : l = k) : k.SameWatermark l := by
  rw [h]
  exact ⟨rfl, rfl⟩

theorem SameWatermark.trans {k l m : Chip} (h : k.SameWatermark l) (h' : l.SameWatermark m) :
    k.SameWatermark m :=
  ⟨h'.low.trans h.low, h'.high.trans h.high⟩

/-- The bytes of a watermark that was programmed. -/
theorem bytes_setWide (v : UInt16) (k : Chip) :
    (k.setWide .watermark v).registers.get Register.watermarkLow = WideField.watermark.lowByte v ∧
      (k.setWide .watermark v).registers.get Register.watermarkHigh =
        WideField.watermark.highByte v :=
  ⟨(RegisterFile.get_set_of_ne _ _ (by decide)).trans (RegisterFile.get_set_self _ _ (by decide)),
    RegisterFile.get_set_self _ _ (by decide)⟩

theorem watermark_setWide {w : Nat} (h : w ≤ fifoDepth) (k : Chip) :
    (k.setWide .watermark (UInt16.ofNat w)).watermark.toNat = w := by
  have hplaced : WideField.watermark.Placed := by decide
  have hdepth : fifoDepth < 1 <<< WideField.watermark.width := by decide
  change ((k.setWide .watermark (UInt16.ofNat w)).wide .watermark).toNat = w
  rw [wide_setWide hplaced]
  exact WideField.toNat_of_lt hplaced (Nat.lt_of_le_of_lt h hdepth)

end Chip

namespace Board

theorem sameWatermark_elsewhere {b c : Board} (h : Rules.elsewhere.allows b c) :
    b.chip.SameWatermark c.chip :=
  ⟨registers_elsewhere h rfl, registers_elsewhere h rfl⟩

theorem sameWatermark_mode {v : UInt8} {b c : Board} {o : Outcome Cause Unit}
    (h : SetFieldEnds .fifoMode v b (o, c)) : b.chip.SameWatermark c.chip :=
  ⟨h.registers (by decide), h.registers (by decide)⟩

end Board

/-! ## Descriptors -/

namespace Fifo

/-- While there are buffers, the low byte and the high byte of the watermark in the registers and
the number of samples that there are buffers for are in this relation. -/
def Relates (P : UInt8 → UInt8 → Nat → Prop) (f : Fifo) : Prop :=
  f.buffers.isSome = true → P (f.board.chip.registers.get Register.watermarkLow)
    (f.board.chip.registers.get Register.watermarkHigh) f.watermark

/-- While there are buffers, they are for the watermark of the converter. -/
def Agrees (f : Fifo) : Prop :=
  f.buffers.isSome = true → f.board.chip.watermark.toNat = f.watermark

/-- While there are buffers, the registers hold the bytes that a change to their watermark
writes. -/
def Programmed (f : Fifo) : Prop :=
  f.Relates fun low high w => low = WideField.watermark.lowByte (UInt16.ofNat w) ∧
    high = WideField.watermark.highByte (UInt16.ofNat w)

/-- The relation holds of the bytes that a change of the watermark writes. -/
def Programs (P : UInt8 → UInt8 → Nat → Prop) : Prop :=
  ∀ w ≤ fifoDepth, P (WideField.watermark.lowByte (UInt16.ofNat w))
    (WideField.watermark.highByte (UInt16.ofNat w)) w

theorem programs_agreement :
    Programs fun low high w => (WideField.watermark.join high low).toNat = w := by
  intro w hw
  obtain ⟨hlow, hhigh⟩ := Chip.bytes_setWide (UInt16.ofNat w) ⟨.empty, #[], false⟩
  rw [← hlow, ← hhigh]
  exact Chip.watermark_setWide hw _

variable {P : UInt8 → UInt8 → Nat → Prop}

/-- What leaves the registers of the watermark alone, and how many samples there are buffers for. -/
theorem Relates.alike {f g : Fifo} (h : f.Relates P) (hsized : g.buffers.isSome = f.buffers.isSome)
    (hwatermark : g.watermark = f.watermark)
    (hchip : f.board.chip.SameWatermark g.board.chip) : g.Relates P := by
  intro hg
  rw [hchip.low, hchip.high, hwatermark]
  exact h (hsized.symm.trans hg)

theorem Relates.withBoard {f : Fifo} (h : f.Relates P) {b : Board}
    (hb : f.board.chip.SameWatermark b.chip) : ({ f with board := b } : Fifo).Relates P :=
  h.alike rfl rfl hb

/-- Whatever becomes of a change of the watermark, it does not leave buffers for another one than
the converter's. -/
theorem SetWatermarkEnds.relates {w : Nat} {f g : Fifo} {o : Outcome Cause Unit}
    (h : SetWatermarkEnds w f (o, g)) (hP : Programs P) (hf : f.Relates P) : g.Relates P := by
  cases h with
  | refused => exact hf
  | undisabled => exact fun hsome => nomatch hsome
  | noMemory => exact fun hsome => nomatch hsome
  | unprogrammed => exact fun hsome => nomatch hsome
  | @done b c d m h1 h2 hoff hnew hset =>
    intro _
    obtain ⟨hlow, hhigh⟩ := Chip.bytes_setWide (UInt16.ofNat w) c.chip
    have hbytes := hP w h2
    rw [← hlow, ← hhigh, ← hset.done] at hbytes
    change P _ _ (Buffers.blank w).watermark
    rw [Buffers.watermark_blank]
    exact hbytes

end Fifo

/-! ## Drivers -/

namespace Driver

variable {δ : Type} {J : List (Entry δ)} {d x y : Driver}

/-- An interrupt keeps the number of samples that there are buffers for. -/
theorem interrupted_sized (h : d.Sound) :
    d.interrupted.fifo.buffers.isSome = d.fifo.buffers.isSome ∧
      d.interrupted.watermark = d.watermark := by
  cases ha : d.awaits with
  | true =>
    obtain ⟨harmed, hdone⟩ := awaits_iff.mp ha
    obtain ⟨b, hb⟩ := Option.isSome_iff_exists.mp (h.sized harmed)
    have hwaits : Progress b [] d := .waiting (fun _ hz => nomatch hz) hdone hb
    obtain ⟨hsized, hwatermark⟩ := (hwaits.interrupt h harmed).watermark
    exact ⟨hsized.trans (h.sized harmed).symm, hwatermark.trans (watermark_of_buffers hb).symm⟩
  | false =>
    have hbuffers := (interrupted_quiet (d := d) (.inr ha)).buffers
    exact ⟨congrArg Option.isSome hbuffers, congrArg (fun b => b.elim 0 Buffers.watermark) hbuffers⟩

/-- The registers of the watermark are left alone by everything foreign. -/
def SparesWatermark (J : List (Entry δ)) : Prop :=
  ∀ e ∈ J, e.Spares Operation.isForeign Register.watermarkLow ∧
    e.Spares Operation.isForeign Register.watermarkHigh

instance : Decidable (SparesWatermark J) := inferInstanceAs (Decidable (∀ e ∈ J, _))

section Relations

variable {P : UInt8 → UInt8 → Nat → Prop} (hP : Fifo.Programs P)
include hP

/-- A relation that a change of the watermark sets up survives everything that leaves the registers
alone. -/
theorem Effect.relates (h : Effect J x y) (hspares : SparesWatermark J) (hx : x.Sound)
    (hrelates : x.fifo.Relates P) : y.fifo.Relates P := by
  cases h with
  | aside h => exact hrelates.withBoard (Board.sameWatermark_elsewhere h)
  | foreign hop hended _ =>
    obtain ⟨hlow, hhigh⟩ := hspares _ hended
    exact hrelates.withBoard ⟨hlow hop, hhigh hop⟩
  | @stored _ _ _ note _ _ _ _ h =>
    have hnoted := hrelates.withBoard (b := x.fifo.board.noted note) ⟨rfl, rfl⟩
    exact hnoted.withBoard (Board.sameWatermark_mode h)
  | timed => exact hrelates
  | interrupted =>
    obtain ⟨hsized, hwatermark⟩ := interrupted_sized hx
    refine hrelates.alike hsized hwatermark ?_
    rcases (interrupted_ends hx).chip with hchip | hchip
    · exact Chip.sameWatermark_of_eq hchip
    · rw [hchip]
      exact Chip.sameWatermark_setMode _ _
  | resized _ hb h _ =>
    exact h.relates hP (hrelates.withBoard (Chip.sameWatermark_of_eq hb.chip))
  | unsized _ => exact hrelates
  | unarmed _ h => exact hrelates.withBoard (Board.sameWatermark_mode h)
  | begun _ h => exact hrelates.withBoard (Board.sameWatermark_mode h)
  | closed _ _ h => exact hrelates.withBoard (Chip.sameWatermark_of_eq h.chip)
  | abandoned _ _ hb hoff hlast =>
    refine hrelates.withBoard ((Chip.sameWatermark_of_eq hb.chip).trans ?_)
    exact (Board.sameWatermark_mode hoff).trans (Chip.sameWatermark_of_eq hlast.chip)

theorem Started.relates {c : Config} {b : Board} (h : Started c b d) : d.fifo.Relates P := by
  obtain ⟨b', f, -, hset, hbuffers, haside⟩ := h.sized
  have hempty : ({ board := b' } : Fifo).Relates P := fun hsome => nomatch hsome
  refine (hset.relates hP hempty).alike (congrArg Option.isSome hbuffers) ?_
    (Board.sameWatermark_elsewhere haside)
  exact congrArg (fun b => b.elim 0 Buffers.watermark) hbuffers

end Relations

theorem Effect.agrees (h : Effect J x y) (hspares : SparesWatermark J) (hx : x.Sound)
    (hagrees : x.fifo.Agrees) : y.fifo.Agrees :=
  h.relates Fifo.programs_agreement hspares hx hagrees

theorem Started.agrees {c : Config} {b : Board} (h : Started c b d) : d.fifo.Agrees :=
  h.relates Fifo.programs_agreement

/-- An interrupt reads as many bytes as a stream of the converter's watermark has. -/
theorem interrupted_requests (h : d.Sound) (hagrees : d.fifo.Agrees) :
    ∃ new, d.interrupted.fifo.board.traffic = new ++ d.fifo.board.traffic ∧
      ∀ n done, .data n done ∈ new → n = 3 * d.fifo.board.chip.watermark.toNat + 1 := by
  obtain ⟨new, hnew, honly⟩ := (interrupted_ends h).traffic
  refine ⟨new, hnew, fun n done hmem => ?_⟩
  cases honly _ hmem with
  | readOut _ hawaits =>
    have hsized := h.sized (awaits_iff.mp hawaits).1
    obtain ⟨b, hb⟩ := Option.isSome_iff_exists.mp hsized
    have hraw : d.fifo.rawSize = b.rawSize := congrArg (fun x => x.elim 0 Buffers.rawSize) hb
    rw [hagrees hsized, hraw, (h.shaped b hb).rawSize_eq]
    exact congrArg Sample.streamLength (watermark_of_buffers hb).symm

end Driver

/-! ## Runs -/

open Driver (SparesWatermark)

/-- In every run in which nothing foreign changes the registers of the watermark, and anything can
fail: whenever there are buffers, they are for the watermark that the converter has, and every
readout that an interrupt then makes asks for the bytes of that many samples. -/
theorem Operation.run_watermark_agrees {δ : Type} [Sink δ] {c : Config} {b : Board} {d : Driver}
    (h : (Driver.init c b).1 = .ok d) (sinks : Nat → δ) (ops : List (Operation δ))
    (hspares : SparesWatermark (runAll ops (Scene.start d sinks)).journal) :
    ∀ e ∈ (runAll ops (Scene.start d sinks)).journal, ∀ x ∈ e.drivers,
      (x.fifo.buffers.isSome = true → 1 ≤ x.watermark ∧ x.watermark ≤ fifoDepth ∧
        x.fifo.board.chip.watermark.toNat = x.watermark) ∧
      ∃ y new, Driver.onInterrupt x = (.ok (), y) ∧
        y.fifo.board.traffic = new ++ x.fifo.board.traffic ∧
        ∀ n done, .data n done ∈ new → n = 3 * x.fifo.board.chip.watermark.toNat + 1 := by
  intro e he x hx
  have htraced := run_traced h sinks ops
  have hsound : x.Sound := htraced.sound x (htraced.shown e he x hx)
  have hagrees : x.fifo.Agrees := htraced.invariant (P := fun x => x.fifo.Agrees)
    (Driver.init_started h).agrees
    (fun x y hx hpassage => (hpassage.effect hx).agrees hspares hx) e he x hx
  constructor
  · intro hsized
    obtain ⟨b, hb⟩ := Option.isSome_iff_exists.mp hsized
    have hw := Driver.watermark_of_buffers hb
    have hshaped := hsound.shaped b hb
    exact ⟨hw ▸ hshaped.one_le, hw ▸ hshaped.le_depth, hagrees hsized⟩
  · obtain ⟨new, hnew⟩ := Driver.interrupted_requests hsound hagrees
    exact ⟨x.interrupted, new, Driver.onInterrupt_eq hsound, hnew⟩

/-- A change of the watermark to 259 that wrote the low byte and failed at the high one, so that
the registers hold 3 and there are no buffers; then a change to 2, and a capture. -/
theorem Operation.run_watermark_agrees_torn :
    ∃ d, (Driver.init { watermark := 2 } ((Board.probed [1, 2]).stumbling 14)).1 = .ok d ∧
      let J := (runAll [.setWatermark 259, .writeDocumented Register.scratchPad 5, .setWatermark 2,
        .capture [.interrupt] []] (Scene.start d fun _ => ({ capacity := 0 } : Store))).journal
      SparesWatermark J ∧
      (∀ e ∈ J, ∀ x ∈ e.drivers,
        (x.fifo.buffers.isSome = true → 1 ≤ x.watermark ∧ x.watermark ≤ fifoDepth ∧
          x.fifo.board.chip.watermark.toNat = x.watermark) ∧
        ∃ y new, Driver.onInterrupt x = (.ok (), y) ∧
          y.fifo.board.traffic = new ++ x.fifo.board.traffic ∧
          ∀ n done, .data n done ∈ new → n = 3 * x.fifo.board.chip.watermark.toNat + 1) ∧
      ((states J).map fun x => (x.watermark, x.fifo.board.chip.watermark.toNat, x.samples)) =
        [(2, 2, #[1, 2]), (2, 2, #[1, 2]), (2, 2, #[1, 2]), (2, 2, #[1, 2]), (2, 2, #[0, 0]),
          (2, 2, #[0, 0]), (0, 3, #[]), (0, 3, #[]), (2, 2, #[0, 0])] := by
  have hrun : ((Driver.init { watermark := 2 } ((Board.probed [1, 2]).stumbling 14)).1.map fun d =>
      let J := (runAll [.setWatermark 259, .writeDocumented Register.scratchPad 5, .setWatermark 2,
        .capture [.interrupt] []] (Scene.start d fun _ => ({ capacity := 0 } : Store))).journal
      (decide (SparesWatermark J),
        (states J).map fun x => (x.watermark, x.fifo.board.chip.watermark.toNat, x.samples))) =
      .ok (true, [(2, 2, #[1, 2]), (2, 2, #[1, 2]), (2, 2, #[1, 2]), (2, 2, #[1, 2]),
        (2, 2, #[0, 0]), (2, 2, #[0, 0]), (0, 3, #[]), (0, 3, #[]), (2, 2, #[0, 0])]) := by
    decide +kernel
  obtain ⟨d, hinit, hrun⟩ := Outcome.of_map_ok hrun
  obtain ⟨hspares, hstates⟩ := Prod.mk.inj hrun
  have hspares := of_decide_eq_true hspares
  exact ⟨d, hinit, hspares, run_watermark_agrees hinit _ _ hspares, hstates⟩

end AdcCapture
