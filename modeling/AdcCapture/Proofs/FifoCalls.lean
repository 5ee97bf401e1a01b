/-
  What calls to a descriptor can do. Buffers are well shaped if the stream buffer has the length
  of a stream of as many samples as the other holds, and those are at least one and at most the
  depth of the converter's FIFO. Every call keeps a descriptor well shaped, and does to its board
  only what given rules allow (`Fifo.contract`). A readout is described in full by
  `Fifo.readSamples_eq`.
-/
import AdcCapture.Proofs.BoardCalls
import AdcCapture.Proofs.BufferAllocation

namespace AdcCapture

/-- The two buffers belong together, and to a watermark that the converter can have. -/
structure Buffers.Shaped (b : Buffers) : Prop where
  rawSize_eq : b.rawSize = Sample.streamLength b.watermark
  one_le : 1 ≤ b.watermark
  le_depth : b.watermark ≤ fifoDepth

namespace Buffers

theorem shaped_blank {w : Nat} (h1 : 1 ≤ w) (h2 : w ≤ fifoDepth) : (blank w).Shaped where
  rawSize_eq := by
    rw [watermark_blank]
    exact Array.size_replicate
  one_le := by rwa [watermark_blank]
  le_depth := by rwa [watermark_blank]

theorem streamLength_lt {w : Nat} (h : w ≤ fifoDepth) : Sample.streamLength w < 1 <<< 64 := by
  have hdepth : fifoDepth = 16384 := rfl
  have hbytes : Sample.packedBytes = 3 := rfl
  have hsync : Sample.syncBytes = 1 := rfl
  unfold Sample.streamLength
  rw [hbytes, hsync]
  omega

end Buffers

/-- The first `n` words of a stream. -/
def Sample.words (stream : Array UInt8) (n : Nat) : Array UInt32 :=
  Array.ofFn fun i : Fin n => Sample.wordAt stream i

theorem Sample.decode_eq {ε : Type} {stream : Array UInt8} {n : Nat}
    (h : Sample.streamLength n ≤ stream.size) :
    Sample.decode (ε := ε) stream n = .ok (Sample.words stream n) := if_pos h

namespace Fifo

def Shaped (f : Fifo) : Prop := ∀ b, f.buffers = some b → b.Shaped

/-- A call on a descriptor keeps it shaped, leaves it as live as it was, and does to the board what
the rules allow. -/
def contract (R : Board.Rules) : Contract Fifo where
  inv := Shaped
  allows f f' := f'.live = f.live ∧ R.allows f.board f'.board
  refl f := ⟨rfl, R.refl f.board⟩
  trans h h' := ⟨h'.1.trans h.1, R.trans h.2 h'.2⟩

/-- What the rules have to permit so that the watermark can be changed. -/
structure PermitsResize (R : Board.Rules) : Prop where
  mode : R.permits (.write Register.generalConfig)
  watermark : R.PermitsWide .watermark
  reserve : R.permits .reserve

/-- What the rules have to permit so that the interrupt can be bound. -/
structure PermitsBinding (R : Board.Rules) : Prop where
  platform : ∀ c, R.permits (.platform c)
  direction : ∀ p : Pin, R.permits (.write p.directionField.address)
  function : ∀ p : Pin, R.permits (.write p.functionField.address)

theorem onBoard_eq {ε α : Type} {a : Action Board ε α} {f : Fifo} {o : Outcome ε α} {b : Board}
    (h : a f.board = (o, b)) : onBoard a f = (o, { f with board := b }) := Action.within_eq f h

section Obeys

variable {R : Board.Rules} {ε α : Type}

theorem onBoard_obeys {a : Action Board ε α} (ha : a.Obeys R.contract) :
    (onBoard a).Obeys (contract R) :=
  .within ha (fun _ _ => trivial) fun _ _ hf _ hallowed => ⟨hf, rfl, hallowed⟩

theorem drop_obeys :
    (Action.update fun f => { f with buffers := none } : Action Fifo ε Unit).Obeys (contract R) :=
  .update fun f _ => ⟨fun _ h => (nomatch h), rfl, R.refl f.board⟩

/-- Turning the FIFO on obeys a contract for descriptors that admits calls on the board, as far as
the rules go. -/
theorem arm_admitted {C : Contract Fifo}
    (hboard : ∀ {a : Call Board Unit}, a.Obeys R.contract → (onBoard a).Obeys C)
    (h : R.permits (.write Register.generalConfig)) : arm.Obeys C := by
  refine .bind .state fun f => ?_
  split
  · exact .fail _
  · exact hboard (R.setFifoMode _ h)

/-- Giving the buffers back obeys a contract that admits this and calls on the board. -/
theorem unsetWatermark_admitted {C : Contract Fifo}
    (hboard : ∀ {a : Call Board Unit}, a.Obeys R.contract → (onBoard a).Obeys C)
    (hdrop : (Action.update fun f => { f with buffers := none } : Call Fifo Unit).Obeys C)
    (h : R.permits (.write Register.generalConfig)) : unsetWatermark.Obeys C :=
  .bind (.attempt (hboard (R.setFifoMode _ h))) fun r => .bind hdrop fun _ => .ofExcept r

theorem unsetWatermark_obeys (h : R.permits (.write Register.generalConfig)) :
    unsetWatermark.Obeys (contract R) := unsetWatermark_admitted onBoard_obeys drop_obeys h

theorem newBuffers_ok {w : Nat} {b b' : Board} {v : Buffers} (h : newBuffers w b = (.ok v, b')) :
    v = Buffers.blank w := by
  rcases Action.of_recover_ok _ h with h | ⟨e, t, -, h⟩
  · obtain ⟨a, ha, -⟩ := Action.of_within_ok _ h
    exact Buffers.allocate_ok ha
  · obtain ⟨_, _, _, h⟩ := Action.of_bind_ok _ h
    cases h

theorem setWatermark_obeys (w : Nat) (h : PermitsResize R) :
    (setWatermark w).Obeys (contract R) := by
  intro f hf
  unfold setWatermark
  rw [Action.state_bind]
  split
  · exact .here hf rfl
  · rename_i hw
    have hw1 : 1 ≤ w := by simp at hw; omega
    have hw2 : w ≤ fifoDepth := by simp at hw; omega
    have hnew := onBoard_obeys (R.newBuffers (Buffers.streamLength_lt hw2) h.reserve)
    refine (unsetWatermark_obeys h.mode f hf).bind fun _ g _ hg => ?_
    refine (hnew g hg).bind fun b i hb hi => ?_
    obtain ⟨_, hb, -⟩ := Action.of_within_ok _ hb
    have hshaped : b.Shaped := newBuffers_ok hb ▸ Buffers.shaped_blank hw1 hw2
    refine (onBoard_obeys (Board.Rules.setWatermark _ h.watermark) i hi).bind fun _ j _ hj => ?_
    have hput : (Action.update fun f => { f with buffers := some b } : Call Fifo Unit).Obeys
        (contract R) := by
      refine .update fun k _ => ⟨fun b' hb' => ?_, rfl, R.refl _⟩
      cases hb'
      exact hshaped
    exact (hput j hj).bind fun _ k _ hk => onBoard_obeys (R.log _) k hk

/-! ### Binding the interrupt -/

section Platform

variable {C : Contract Board} (hcall : ∀ c irq, (Board.platform c irq).Obeys C)
  (hlog : ∀ {ε : Type} m, (Board.log m : Action Board ε Unit).Obeys C)

include hcall in
theorem releaseLine_obeys : (releaseLine : Action Board ε Unit).Obeys C :=
  .recover (hcall _ _) fun _ => .pure ()

include hcall in
theorem removeController_obeys : (removeController : Action Board ε Unit).Obeys C :=
  .recover (hcall _ _) fun _ => .pure ()

include hlog in
theorem lineError_obeys (c : PlatformCall) : (lineError c : Call Board α).Obeys C :=
  .bind (hlog _) fun _ => .fail _

include hlog in
theorem controllerError_obeys (c : PlatformCall) : (controllerError c : Call Board α).Obeys C :=
  .bind (hlog _) fun _ => .fail _

include hcall hlog

/-- Taking the platform side down obeys whatever single platform calls and messages obey. -/
theorem teardown_obeys (irq : UInt32) (enabled : Bool) :
    (teardown irq enabled : Action Board ε Unit).Obeys C := by
  have hrest : (do
      (Board.platform .irqUnregister (some irq)).recover fun _ => Board.log (.unregisterFailed irq)
      removeController
      releaseLine : Action Board ε Unit).Obeys C :=
    .bind (.recover (hcall _ _) fun _ => hlog _) fun _ =>
      .bind (removeController_obeys hcall) fun _ => releaseLine_obeys hcall
  cases enabled with
  | true => exact .bind (.recover (hcall _ _) fun _ => hlog _) fun _ => hrest
  | false => exact hrest

theorem setUpPlatform_obeys (irq : UInt32) : (setUpPlatform irq).Obeys C := by
  have hline := fun c => lineError_obeys (α := Unit) hlog c
  have hcontroller := fun c => controllerError_obeys (α := Unit) hlog c
  have hrelease : (releaseLine : Call Board Unit).Obeys C := releaseLine_obeys hcall
  refine .bind (.recover (hcall _ _) hline) fun _ => ?_
  refine .bind (.recover (hcall _ _) fun c => .bind hrelease fun _ => hline c) fun _ => ?_
  refine .bind (.recover (hcall _ _) fun c => .bind hrelease fun _ => hcontroller c) fun _ => ?_
  refine .bind (.recover (hcall _ _) fun c =>
    .bind (removeController_obeys hcall) fun _ => .bind hrelease fun _ => hcontroller c) fun _ => ?_
  exact .recover (.bind (hcall _ _) fun _ => hcall _ _) fun c =>
    .bind (teardown_obeys hcall hlog irq false) fun _ => hcontroller c

end Platform

theorem wired_pins (p : Pin) :
    Instruction.wired p.directionField.address = p.directionField.address ∧
      Instruction.wired p.functionField.address = p.functionField.address := by
  cases p <;> decide

theorem setPinFunction_obeys (p : Pin) (f : PinFunction)
    (h : R.permits (.write p.functionField.address)) :
    (Converter.setPinFunction p f).Obeys R.contract :=
  R.setField _ _ h ((wired_pins p).2.symm ▸ h)

theorem setPinDirection_obeys (p : Pin) (d : PinDirection)
    (h : R.permits (.write p.directionField.address)) :
    (Converter.setPinDirection p d).Obeys R.contract :=
  R.setField _ _ h ((wired_pins p).1.symm ▸ h)

theorem routePin_obeys (p : Pin) (h : PermitsBinding R) : (routePin p).Obeys R.contract :=
  .bind (setPinDirection_obeys p _ (h.direction p)) fun _ => setPinFunction_obeys p _ (h.function p)

theorem bind_obeys (b : Option Binding) :
    (Action.update fun f => { f with binding := b } : Action Fifo ε Unit).Obeys (contract R) :=
  .update fun f hf => ⟨hf, rfl, R.refl f.board⟩

/-- Binding the interrupt obeys a contract for descriptors that admits calls on the board, as far
as the rules go, and a new binding. -/
theorem registerIrq_admitted {C : Contract Fifo}
    (hboard : ∀ {β : Type} {a : Call Board β}, a.Obeys R.contract → (onBoard a).Obeys C)
    (hbind : ∀ b, (Action.update fun f => { f with binding := b } : Call Fifo Unit).Obeys C)
    (i : Nat) (h : PermitsBinding R) : (registerIrq i).Obeys C := by
  have hcall := fun c irq => R.platform c irq (h.platform c)
  refine .bind .state fun f => ?_
  split
  · exact .fail _
  · cases Pin.ofIndex? i with
    | none => exact .fail _
    | some pin =>
      have hroute : ((routePin pin).recover fun e => do
          teardown f.board.irq true
          .fail e : Call Board Unit).Obeys R.contract :=
        .recover (routePin_obeys pin h) fun e =>
          .bind (teardown_obeys hcall R.log _ true) fun _ => .fail e
      refine .bind (hboard (setUpPlatform_obeys hcall R.log _)) fun _ => ?_
      refine .bind (hboard hroute) fun _ => ?_
      exact .bind (hboard (R.log _)) fun _ => hbind _

theorem registerIrq_obeys (i : Nat) (h : PermitsBinding R) :
    (registerIrq i).Obeys (contract R) :=
  registerIrq_admitted onBoard_obeys bind_obeys i h

end Obeys

/-! ## A readout -/

theorem readSamples_eq {f : Fifo} {b : Buffers} (hb : f.buffers = some b)
    (hs : b.rawSize = Sample.streamLength b.watermark) :
    readSamples f =
      match Converter.readData b.rawSize f.board with
      | (.ok raw, c) =>
        (.ok (), { f with board := c, buffers := some ⟨raw, Sample.words raw b.watermark⟩ })
      | (.error e, c) => (.error e, { f with board := c })
      | (.fault x, c) => (.fault x, { f with board := c }) := by
  unfold readSamples
  rw [Action.state_bind, hb]
  dsimp only
  rcases hr : Converter.readData b.rawSize f.board with ⟨o, c⟩
  have hon := onBoard_eq hr
  cases o with
  | ok raw =>
    have hsize : raw.size = b.rawSize := Board.readData_size (Action.of_mapError_ok _ hr)
    have hlong : Sample.streamLength b.watermark ≤ raw.size :=
      Nat.le_of_eq (hs.symm.trans hsize.symm)
    have hformat : ({ b with raw := raw } : Buffers).format (ε := Cause) =
        .ok ⟨raw, Sample.words raw b.watermark⟩ := by
      unfold Buffers.format
      rw [show b.samples.size = b.watermark from rfl, Sample.decode_eq hlong]
      rfl
    rw [Action.bind_ok _ hon, Action.update_bind, hformat, Action.give_ok_bind]
    rfl
  | error e =>
    rw [Action.bind_error _ hon, hb]
  | fault x =>
    rw [Action.bind_apply, hon, hb]

/-- A readout breaks no assertion, and buffers of one watermark stay buffers of it. -/
theorem readSamples_keeps {f : Fifo} (h : f.Shaped) :
    (readSamples f).1.fault? = none ∧ (readSamples f).2.Shaped ∧
      (readSamples f).2.live = f.live ∧ (readSamples f).2.watermark = f.watermark ∧
      (readSamples f).2.buffers.isSome = f.buffers.isSome := by
  cases hb : f.buffers with
  | none =>
    have hnone : readSamples f = (.error .invalidArgument, f) := by
      unfold readSamples
      rw [Action.state_bind, hb]
      rfl
    rw [hnone, hb]
    exact ⟨rfl, h, rfl, rfl, rfl⟩
  | some b =>
    have hshaped := h b hb
    rw [readSamples_eq hb hshaped.rawSize_eq]
    unfold watermark
    rw [hb]
    rcases Converter.readData_ends b.rawSize f.board with ⟨raw, c, hr⟩ | ⟨e, c, hr⟩
    · have hsize : raw.size = b.rawSize := Board.readData_size (Action.of_mapError_ok _ hr)
      have hwords : (Sample.words raw b.watermark).size = b.watermark := Array.size_ofFn
      rw [hr]
      refine ⟨rfl, fun b' hb' => ?_, rfl, hwords, rfl⟩
      cases hb'
      constructor
      · exact hsize.trans (hshaped.rawSize_eq.trans (congrArg _ hwords.symm))
      · exact Nat.le_trans hshaped.one_le (Nat.le_of_eq hwords.symm)
      · exact Nat.le_trans (Nat.le_of_eq hwords) hshaped.le_depth
    · rw [hr]
      refine ⟨rfl, fun b' hb' => ?_, rfl, rfl, rfl⟩
      cases hb'
      exact hshaped

end Fifo

end AdcCapture
