/-
  Descriptors and drivers in a faithful mirror of boards. The counterpart of a descriptor is the one
  on the counterpart of its board; a driver has besides the result in its completion, which can be a
  failure of the bus. Every call to either mirrors itself, with what comes in at the interrupt
  points of a capture as a parameter: what is there on the one side has to be mirrored by what is
  there on the other.
-/
import AdcCapture.Proofs.AttributeInput
import AdcCapture.Proofs.BoardMirrors
import AdcCapture.Proofs.StagingBuffer

namespace AdcCapture

variable {M : Mirror Board} {fault : BusFault → BusFault} {reach : UInt16 → Prop}

/-! ## Descriptors -/

namespace Fifo

/-- The descriptor on the counterpart of its board. -/
def mirrorOf (M : Mirror Board) : Mirror Fifo where
  image f := { f with board := M.image f.board }
  inv f := M.inv f.board

theorem boardPart_mirrored : boardPart.Mirrored (mirrorOf M) M where
  get _ := rfl
  set _ _ _ _ := rfl
  inv _ hf := hf
  kept _ _ hb _ := hb

section

variable {ε ε' α α' : Type} {e : ε → ε'} {v : α → α'} {a : Action Board ε α}
  {a' : Action Board ε' α'}

theorem onBoard_mirrors (h : a.Mirrors M e v a') :
    (onBoard a).Mirrors (mirrorOf M) e v (onBoard a') :=
  .within boardPart_mirrored h

end

/-- A readout that is decoded cannot fail by the bus. -/
theorem format_through (b : Buffers) :
    ((b.format : Outcome Cause Buffers).mapError (Failure.through fault)).map id = b.format := by
  unfold Buffers.format Sample.decode
  split <;> rfl

section Faithful

variable (hM : M.Faithful fault reach)
include hM

theorem disable_mirrors : disable.Mirrors (mirrorOf M) (Failure.through fault) id disable :=
  onBoard_mirrors (Converter.setFifoMode_mirrors hM _)

theorem unsetWatermark_mirrors :
    unsetWatermark.Mirrors (mirrorOf M) (Failure.through fault) id unsetWatermark :=
  .bind (.attempt (disable_mirrors hM)) fun r => .bind (.update fun _ hf => ⟨rfl, hf⟩) fun _ =>
    .ofExcept r

theorem newBuffers_mirrors (w : Nat) :
    (newBuffers w).Mirrors M (Failure.through fault) id (newBuffers w) :=
  .recover (.within hM.allocation (.still _)) fun _ =>
    .bind (hM.log (.noMemory w)) fun _ => .fail _

theorem setWatermark_mirrors (w : Nat) :
    (setWatermark w).Mirrors (mirrorOf M) (Failure.through fault) id (setWatermark w) :=
  .stateBind fun _ _ => .ite (fun _ => .fail _) fun _ =>
    .bind (unsetWatermark_mirrors hM) fun _ =>
    .bind (onBoard_mirrors (newBuffers_mirrors hM w)) fun b =>
    .bind (onBoard_mirrors (Converter.setWatermark_mirrors hM _)) fun _ =>
    .bind (.update fun _ hf => ⟨rfl, hf⟩) fun _ =>
    onBoard_mirrors (hM.log (.watermarkSet w b.rawSize b.formattedSize))

theorem arm_mirrors : arm.Mirrors (mirrorOf M) (Failure.through fault) id arm :=
  .stateBind fun _ _ => .ite (fun _ => .fail _) fun _ =>
    onBoard_mirrors (Converter.setFifoMode_mirrors hM _)

theorem readSamples_mirrors :
    readSamples.Mirrors (mirrorOf M) (Failure.through fault) id readSamples := by
  refine .stateBind fun f _ => ?_
  dsimp only [mirrorOf]
  cases f.buffers with
  | none => exact .fail _
  | some b =>
    refine .bind (onBoard_mirrors (Converter.readData_mirrors hM _)) fun raw => ?_
    refine .bind (.update fun _ hf => ⟨rfl, hf⟩) fun _ => ?_
    have hgive := Action.Mirrors.give (M := mirrorOf M) (e := Failure.through fault) (v := id)
      ({ b with raw := raw } : Buffers).format
    rw [format_through] at hgive
    exact .bind hgive fun _ => .update fun _ hf => ⟨rfl, hf⟩

/-! ### The interrupt of the full FIFO -/

section Platform

variable {ε ε' : Type} {e : ε → ε'}

theorem releaseLine_mirrors :
    (releaseLine : Action Board ε Unit).Mirrors M e id releaseLine :=
  .recover (hM.platform _ _) fun _ => .pure ()

theorem removeController_mirrors :
    (removeController : Action Board ε Unit).Mirrors M e id removeController :=
  .recover (hM.platform _ _) fun _ => .pure ()

theorem teardown_mirrors (irq : UInt32) (enabled : Bool) :
    (teardown irq enabled : Action Board ε Unit).Mirrors M e id
      (teardown irq enabled) := by
  have hrest : (do
      (Board.platform .irqUnregister (some irq)).recover fun _ => Board.log (.unregisterFailed irq)
      removeController
      releaseLine : Action Board ε Unit).Mirrors M e id (do
      (Board.platform .irqUnregister (some irq)).recover fun _ => Board.log (.unregisterFailed irq)
      removeController
      releaseLine) :=
    .bind (.recover (hM.platform _ _) fun _ => hM.log _) fun _ =>
      .bind (removeController_mirrors hM) fun _ => releaseLine_mirrors hM
  cases enabled with
  | true =>
    exact .bind (.recover (hM.platform _ _) fun _ => hM.log _) fun _ => hrest
  | false => exact hrest

end Platform

theorem lineError_mirrors {α : Type} (c : PlatformCall) :
    (lineError c : Call Board α).Mirrors M (Failure.through fault) id (lineError c) :=
  .bind (hM.log (.lineFailed c)) fun _ => .fail _

theorem controllerError_mirrors {α : Type} (c : PlatformCall) :
    (controllerError c : Call Board α).Mirrors M (Failure.through fault) id
      (controllerError c) :=
  .bind (hM.log (.controllerFailed c)) fun _ => .fail _

theorem setUpPlatform_mirrors (irq : UInt32) :
    (setUpPlatform irq).Mirrors M (Failure.through fault) id (setUpPlatform irq) := by
  have hcall := hM.platform
  refine .bind (.recover (hcall _ _) (lineError_mirrors hM)) fun _ => ?_
  refine .bind (.recover (hcall _ _) fun c => ?_) fun _ => ?_
  · exact .bind (releaseLine_mirrors hM) fun _ => lineError_mirrors hM c
  refine .bind (.recover (hcall _ _) fun c => ?_) fun _ => ?_
  · exact .bind (releaseLine_mirrors hM) fun _ => controllerError_mirrors hM c
  refine .bind (.recover (hcall _ _) fun c => ?_) fun _ => ?_
  · exact .bind (removeController_mirrors hM) fun _ => .bind (releaseLine_mirrors hM) fun _ =>
      controllerError_mirrors hM c
  refine .recover (.bind (hcall _ _) fun _ => hcall _ _) fun c => ?_
  exact .bind (teardown_mirrors hM irq false) fun _ => controllerError_mirrors hM c

theorem routePin_mirrors (p : Pin) :
    (routePin p).Mirrors M (Failure.through fault) id (routePin p) :=
  .bind (Converter.setPinDirection_mirrors hM p _) fun _ => Converter.setPinFunction_mirrors hM p _

theorem registerIrq_mirrors (i : Nat) :
    (registerIrq i).Mirrors (mirrorOf M) (Failure.through fault) id (registerIrq i) := by
  refine .stateBind fun f _ => .ite (fun _ => .fail _) fun _ => ?_
  have hirq : ((mirrorOf M).image f).board.irq = f.board.irq := hM.irq f.board
  rw [hirq]
  cases Pin.ofIndex? i with
  | none => exact .fail _
  | some pin =>
    refine .bind (onBoard_mirrors (setUpPlatform_mirrors hM _)) fun _ => ?_
    refine .bind (onBoard_mirrors (.recover (routePin_mirrors hM pin) fun c => ?_)) fun _ => ?_
    · exact .bind (teardown_mirrors hM f.board.irq true) fun _ => .fail c
    · exact .bind (onBoard_mirrors (hM.log _)) fun _ => .update fun _ hf => ⟨rfl, hf⟩

theorem unregisterIrq_mirrors :
    unregisterIrq.Mirrors (mirrorOf M) (Failure.through fault) id unregisterIrq := by
  refine .stateBind fun f _ => ?_
  dsimp only [mirrorOf]
  cases f.binding with
  | none => exact .pure ()
  | some b =>
    refine .bind (.update fun _ hf => ⟨rfl, hf⟩) fun _ => ?_
    refine .bind (.attempt (onBoard_mirrors (Converter.setPinFunction_mirrors hM _ _))) fun r => ?_
    exact .bind (onBoard_mirrors (teardown_mirrors hM b.irq true)) fun _ => .ofExcept r

theorem handleInterrupt_mirrors {σ : Type} {N : Mirror σ} {p : Part σ Fifo}
    (hp : p.Mirrored N (mirrorOf M)) {consumer consumer' : Action σ Empty Unit}
    (hconsumer : consumer.Mirrors N id id consumer') :
    (handleInterrupt p consumer).Mirrors N (Failure.through fault) id
      (handleInterrupt p consumer') := by
  have hboard := hp.andThen boardPart_mirrored
  refine .stateBind fun s _ => ?_
  rw [hp.get]
  refine .ite (fun _ => .give _) fun _ => ?_
  refine .bind (.within hboard (Converter.fifoFull_mirrors hM)) fun full => ?_
  refine .ite (fun _ => ?_) fun _ => ?_
  · exact .bind (.mapError hconsumer nofun) fun _ =>
      .bind (.within hp (disable_mirrors hM)) fun _ => .pure _
  · exact .bind (.within hboard (hM.log _)) fun _ => .pure _

end Faithful

end Fifo

/-! ## Completions -/

namespace Completion

variable {α : Type} (g : α → α)

/-- The completion with another value in its slot. -/
def mapSlot (c : Completion α) : Completion α := { c with slot := c.slot.map g }

def mirror : Mirror (Completion α) := ⟨mapSlot g, fun _ => True⟩

theorem result?_mapSlot (c : Completion α) : (c.mapSlot g).result? = c.result?.map g := by
  unfold result? mapSlot
  split <;> rfl

theorem look_mapSlot (c : Completion α) (polls : Nat) :
    (c.mapSlot g).look polls = (c.look polls).map g := by
  induction polls with
  | zero => exact c.result?_mapSlot g
  | succ n ih =>
    unfold look
    rw [c.result?_mapSlot g]
    cases c.result? with
    | none => exact ih
    | some v => rfl

theorem signal_mirrors (x : α) : (signal x).Mirrors (mirror g) id id (signal (g x)) := by
  rintro ⟨signed, done, slot⟩ -
  cases signed with
  | false => exact ⟨rfl, trivial⟩
  | true =>
    cases done with
    | false => exact ⟨rfl, trivial⟩
    | true => exact ⟨rfl, trivial⟩

theorem wait_mirrors (polls : Nat) :
    (wait polls : Action (Completion α) TimedOut α).Mirrors (mirror g) id g (wait polls) := by
  intro c hc
  have hlook := look_mapSlot g c polls
  unfold wait
  dsimp only [mirror]
  rw [hlook]
  obtain ⟨signed, done, slot⟩ := c
  cases signed with
  | false => exact ⟨rfl, hc⟩
  | true =>
    generalize look _ polls = found
    cases found with
    | none => exact ⟨rfl, hc⟩
    | some v => exact ⟨rfl, hc⟩

end Completion

/-! ## Drivers -/

namespace Driver

/-- How a readout went, with a failure of the bus as it is seen in a mirror. -/
abbrev resultThrough (fault : BusFault → BusFault) : Except Cause Unit → Except Cause Unit :=
  bothMap (Failure.through fault) id

/-- The driver on the counterpart of its board. -/
def mirrorOf (M : Mirror Board) (fault : BusFault → BusFault) : Mirror Driver where
  image d := { d with
    fifo := (Fifo.mirrorOf M).image d.fifo
    completion := d.completion.mapSlot (resultThrough fault) }
  inv d := M.inv d.fifo.board

theorem fifoPart_mirrored : fifoPart.Mirrored (mirrorOf M fault) (Fifo.mirrorOf M) where
  get _ := rfl
  set _ _ _ _ := rfl
  inv _ hd := hd
  kept _ _ hf _ := hf

theorem completionPart_mirrored :
    completionPart.Mirrored (mirrorOf M fault) (Completion.mirror (resultThrough fault)) where
  get _ := rfl
  set _ _ _ _ := rfl
  inv _ _ := trivial
  kept _ _ _ hd := hd

theorem boardPart_mirrored : boardPart.Mirrored (mirrorOf M fault) M :=
  fifoPart_mirrored.andThen Fifo.boardPart_mirrored

section Parts

variable {ε ε' α α' : Type} {e : ε → ε'} {v : α → α'}

theorem onFifo_mirrors {a : Action Fifo ε α} {a' : Action Fifo ε' α'}
    (h : a.Mirrors (Fifo.mirrorOf M) e v a') :
    (onFifo a).Mirrors (mirrorOf M fault) e v (onFifo a') :=
  .within fifoPart_mirrored h

theorem onBoard_mirrors {a : Action Board ε α} {a' : Action Board ε' α'}
    (h : a.Mirrors M e v a') : (onBoard a).Mirrors (mirrorOf M fault) e v (onBoard a') :=
  .within boardPart_mirrored h

theorem setCaptureTimeout_mirrors (polls : UInt32) :
    (Action.update (setCaptureTimeout polls) : Action Driver ε Unit).Mirrors (mirrorOf M fault) e id
      (.update (setCaptureTimeout polls)) :=
  .update fun _ hd => ⟨rfl, hd⟩

end Parts

section Faithful

variable (hM : M.Faithful fault reach)
include hM

theorem log_mirrors {ε ε' : Type} {e : ε → ε'} (m : Message) :
    (onBoard (Board.log m) : Action Driver ε Unit).Mirrors (mirrorOf M fault) e id
      (onBoard (Board.log (m.through fault))) :=
  onBoard_mirrors (hM.log m)

/-! ### Interrupts and captures -/

theorem consume_mirrors : consume.Mirrors (mirrorOf M fault) id id consume := by
  refine .stateBind fun d _ => .ite (fun _ => log_mirrors hM _) fun _ => ?_
  refine .bind (.attempt (onFifo_mirrors (Fifo.readSamples_mirrors hM))) fun r => ?_
  exact .within completionPart_mirrored (Completion.signal_mirrors _ r)

theorem onInterrupt_mirrors : onInterrupt.Mirrors (mirrorOf M fault) id id onInterrupt := by
  refine .bind (.attempt (Fifo.handleInterrupt_mirrors hM fifoPart_mirrored (consume_mirrors hM)))
    fun r => ?_
  cases r with
  | ok event => exact .pure ()
  | error c => exact log_mirrors hM (.interruptFailed c)

theorem beginCapture_mirrors :
    beginCapture.Mirrors (mirrorOf M fault) (Failure.through fault) id beginCapture := by
  refine .stateBind fun d _ => ?_
  dsimp only [mirrorOf]
  cases d.capture with
  | armed => exact .fail _
  | idle =>
    refine .bind (.update fun _ hd => ⟨rfl, hd⟩) fun _ => ?_
    refine .recover (onFifo_mirrors (Fifo.arm_mirrors hM)) fun c => ?_
    exact .bind (.update fun _ hd => ⟨rfl, hd⟩) fun _ => .fail c

theorem abandon_mirrors (polls : UInt32) :
    (abandon polls).Mirrors (mirrorOf M fault) (Failure.through fault) (resultThrough fault)
      (abandon polls) :=
  .bind (log_mirrors hM (.captureTimedOut polls)) fun _ =>
    .bind (.recover (onFifo_mirrors (Fifo.disable_mirrors hM)) fun c =>
      log_mirrors hM (.abandonFailed c)) fun _ => .pure _

theorem lateResult_mirrors (polls : UInt32) :
    (lateResult polls).Mirrors (mirrorOf M fault) (Failure.through fault) (resultThrough fault)
      (lateResult polls) := by
  refine .stateBind fun d _ => .ite (fun _ => ?_) fun _ => abandon_mirrors hM polls
  exact .recover (.within completionPart_mirrored (Completion.wait_mirrors _ 0)) fun _ => .pure _

theorem endCapture_mirrors (polls : UInt32) (waited : Except TimedOut (Except Cause Unit)) :
    (endCapture polls waited).Mirrors (mirrorOf M fault) (Failure.through fault) id
      (endCapture polls (bothMap id (resultThrough fault) waited)) := by
  -- A wait without a result leads to one, and from there on the capture ends as any other.
  have hclose : ∀ r, (endCapture polls (.ok r)).Mirrors (mirrorOf M fault)
      (Failure.through fault) id (endCapture polls (.ok (resultThrough fault r))) := by
    intro r
    cases r with
    | ok _ => exact fun d hd => log_mirrors hM .captureComplete d.closed hd
    | error c => exact fun d hd => ⟨rfl, hd⟩
  cases waited with
  | ok r => exact hclose r
  | error _ => exact .bind (lateResult_mirrors hM polls) hclose

section Captures

variable {σ : Type} {N : Mirror σ} {p : Part σ Driver} (hp : p.Mirrored N (mirrorOf M fault))
include hp

theorem captureOn_mirrors {interrupts interrupts' : Interrupts σ}
    (hArm : (Action.update interrupts.afterArm : Call σ Unit).Mirrors N (Failure.through fault) id
      (.update interrupts'.afterArm))
    (hWait : (Action.update interrupts.afterWait : Call σ Unit).Mirrors N (Failure.through fault) id
      (.update interrupts'.afterWait)) :
    (captureOn p interrupts).Mirrors N (Failure.through fault) id (captureOn p interrupts') := by
  refine .bind (.within hp (beginCapture_mirrors hM)) fun _ => ?_
  refine .bind hArm fun _ => ?_
  refine .bind (.within hp (log_mirrors hM _)) fun _ => ?_
  refine .stateBind fun s _ => ?_
  rw [hp.get]
  refine .bind (.attempt (.within (hp.andThen completionPart_mirrored)
    (Completion.wait_mirrors _ _))) fun waited => ?_
  exact .bind hWait fun _ => .within hp (endCapture_mirrors hM _ waited)

/-! ### Submissions -/

section Sinks

variable {δ : Type} [Sink δ] {q : Part σ δ} (hq : q.Mirrored N (.still δ))
include hq

theorem writeBlock_mirrors (block : List UInt32) :
    (writeBlock (p.andThen boardPart) q block).Mirrors N (Failure.through fault) id
      (writeBlock (p.andThen boardPart) q block) := by
  have hboard := hp.andThen boardPart_mirrored
  refine .stateBind fun s _ => ?_
  rw [hq.get]
  refine .bind (.update fun t ht => ⟨hq.set _ t trivial ht, hq.kept _ t trivial ht⟩) fun _ => ?_
  refine .bind (.within hboard (hM.offer _ _)) fun _ => ?_
  exact .ite (fun _ => .pure ()) fun _ => .fail _

theorem writeBlocks_mirrors (blocks : List (List UInt32)) :
    (writeBlocks (p.andThen boardPart) q blocks).Mirrors N (Failure.through fault) id
      (writeBlocks (p.andThen boardPart) q blocks) := by
  induction blocks with
  | nil => exact .pure ()
  | cons block rest ih => exact .bind (writeBlock_mirrors hM hp hq block) fun _ => ih

theorem deliver_mirrors (samples : List UInt32) :
    (deliver (p.andThen boardPart) q samples).Mirrors N (Failure.through fault) id
      (deliver (p.andThen boardPart) q samples) := by
  rw [deliver_eq]
  have hboard := hp.andThen boardPart_mirrored
  refine .stateBind fun s _ => ?_
  rw [hq.get]
  have hwrite : ∀ (room needed : Nat) blocks, (if room < needed then .fail .bufferFull
      else writeBlocks (p.andThen boardPart) q blocks : Call σ Unit).Mirrors N
      (Failure.through fault) id (if room < needed then .fail .bufferFull
      else writeBlocks (p.andThen boardPart) q blocks) :=
    fun _ _ blocks => .ite (fun _ => .fail _) fun _ => writeBlocks_mirrors hM hp hq blocks
  exact .ite (fun _ => .bind (.within hboard (hM.log _)) fun _ => hwrite _ _ _)
    fun _ => hwrite _ _ _

/-- The delivery of what was captured. -/
theorem deliverSamples_mirrors :
    (do deliver (p.andThen boardPart) q (p.get (← Action.state)).samples.toList).Mirrors N
      (Failure.through fault) id
      (do deliver (p.andThen boardPart) q (p.get (← Action.state)).samples.toList) := by
  refine .stateBind fun s _ => ?_
  rw [hp.get]
  exact deliver_mirrors hM hp hq _

end Sinks

end Captures

theorem setWatermark_mirrors (n : Nat) :
    (setWatermark n).Mirrors (mirrorOf M fault) (Failure.through fault) id (setWatermark n) :=
  .stateBind fun _ _ => .ite (fun _ => .fail _) fun _ =>
    onFifo_mirrors (Fifo.setWatermark_mirrors hM n)

theorem submitOn_mirrors {σ δ : Type} [Sink δ] {N : Mirror σ} {p : Part σ Driver}
    (hp : p.Mirrored N (mirrorOf M fault)) {q : Part σ δ} (hq : q.Mirrored N (.still δ))
    {interrupts interrupts' : Interrupts σ}
    (hcapture : (captureOn p interrupts).Mirrors N (Failure.through fault) id
      (captureOn p interrupts'))
    (n : Nat) :
    (submitOn p q interrupts n).Mirrors N (Failure.through fault) id
      (submitOn p q interrupts' n) := by
  have hrest : (do
      captureOn p interrupts
      deliver (p.andThen boardPart) q (p.get (← Action.state)).samples.toList).Mirrors N
        (Failure.through fault) id (do
      captureOn p interrupts'
      deliver (p.andThen boardPart) q (p.get (← Action.state)).samples.toList) :=
    .bind hcapture fun _ => deliverSamples_mirrors hM hp hq
  refine .stateBind fun s _ => ?_
  rw [hp.get]
  exact .ite (fun _ => hrest) fun _ =>
    .bind (.within hp (setWatermark_mirrors hM n)) fun _ => hrest

end Faithful

end Driver

/-! ## Attributes -/

namespace Attribute

/-- What a text asks for has nothing to do with the bus. -/
theorem parse_through (a : Attribute) (input : String) :
    ((a.parse input).mapError (Failure.through fault)).map id = a.parse input := by
  have hends := a.parse_ends input
  generalize a.parse input = o at hends
  cases hends with
  | refused => rfl
  | taken => rfl

/-- The first sample as a text. -/
theorem firstSample_mirrors {σ : Type} {N : Mirror σ} {p : Part σ Driver}
    (hp : p.Mirrored N (Driver.mirrorOf M fault)) :
    (do match (p.get (← Action.state)).samples[0]? with
      | some w => return toString w.toNat
      | none => .fail .invalidArgument : Call σ String).Mirrors N (Failure.through fault) id
    (do match (p.get (← Action.state)).samples[0]? with
      | some w => return toString w.toNat
      | none => .fail .invalidArgument) := by
  refine .stateBind fun s _ => ?_
  have hsamples : ((Driver.mirrorOf M fault).image (p.get s)).samples = (p.get s).samples := rfl
  rw [hp.get, hsamples]
  cases (p.get s).samples[0]? with
  | some w => exact .pure _
  | none => exact .fail _

section Faithful

variable (hM : M.Faithful fault reach)
include hM

theorem registerText_mirrors (a : Attribute) :
    a.registerText.Mirrors M (Failure.through fault) id a.registerText := by
  cases a with
  | raw => exact .fail _
  | scale => exact .pure _
  | offset =>
    exact .bind (Converter.getSigned_mirrors hM (by decide) (by decide)) fun _ => .pure _
  | outputEnable p =>
    exact .bind (.bind (Converter.getField_mirrors hM p.directionField_le) fun _ =>
      .pure _) fun _ => .pure _
  | function p => exact .bind (Converter.pinFunction_mirrors hM p) fun _ => .pure _
  | fifoMode =>
    exact .bind (.bind (Converter.getField_mirrors hM (by decide)) fun _ => .pure _) fun _ =>
      .pure _
  | fifoWatermark =>
    exact .bind (Converter.getWide_mirrors hM (by decide) (by decide)) fun _ => .pure _
  | hysteresis =>
    exact .bind (Converter.getWide_mirrors hM (by decide) (by decide)) fun _ => .pure _
  | threshold t =>
    exact .bind (Converter.getSigned_mirrors hM t.low_le t.high_le) fun _ => .pure _
  | filterSelect =>
    exact .bind (.bind (Converter.getField_mirrors hM (by decide)) fun _ => .pure _) fun _ =>
      .pure _
  | sincRate => exact .bind (Converter.getField_mirrors hM (by decide)) fun _ => .pure _
  | deviceMode =>
    exact .bind (.bind (Converter.getField_mirrors hM (by decide)) fun _ => .pure _) fun _ =>
      .pure _

theorem textOn_mirrors {σ : Type} {N : Mirror σ} {p : Part σ Driver}
    (hp : p.Mirrored N (Driver.mirrorOf M fault)) {interrupts interrupts' : Interrupts σ}
    (hcapture : (Driver.captureOn p interrupts).Mirrors N (Failure.through fault) id
      (Driver.captureOn p interrupts')) (a : Attribute) :
    (a.textOn p interrupts).Mirrors N (Failure.through fault) id (a.textOn p interrupts') := by
  have htext : (Action.within (p.andThen Driver.boardPart) a.registerText).Mirrors N
      (Failure.through fault) id (Action.within (p.andThen Driver.boardPart) a.registerText) :=
    .within (hp.andThen Driver.boardPart_mirrored) (a.registerText_mirrors hM)
  cases a with
  | raw => exact .bind hcapture fun _ => firstSample_mirrors hp
  | _ => exact htext

theorem Setting.apply_mirrors (s : Setting) :
    s.apply.Mirrors (Driver.mirrorOf M fault) (Failure.through fault) id s.apply := by
  cases s with
  | offset v =>
    exact Driver.onBoard_mirrors (Converter.setSigned_mirrors hM (by decide) (by decide) v)
  | direction p d => exact Driver.onBoard_mirrors (Converter.setPinDirection_mirrors hM p d)
  | function p f => exact Driver.onBoard_mirrors (Converter.setPinFunction_mirrors hM p f)
  | fifoMode m => exact Driver.onBoard_mirrors (Converter.setFifoMode_mirrors hM m)
  | watermark n => exact Driver.setWatermark_mirrors hM n
  | hysteresis v =>
    exact Driver.onBoard_mirrors (Converter.setWide_mirrors hM (by decide) (by decide) v)
  | threshold t v =>
    exact Driver.onBoard_mirrors (Converter.setSigned_mirrors hM t.low_le t.high_le v)
  | filter f => exact Driver.onBoard_mirrors (Converter.setField_mirrors hM (by decide) _)
  | sincRate r => exact Driver.onBoard_mirrors (Converter.setField_mirrors hM (by decide) _)
  | operatingMode m => exact Driver.onBoard_mirrors (Converter.setField_mirrors hM (by decide) _)

end Faithful

end Attribute

namespace Driver

theorem fitting_mirrors {σ : Type} {N : Mirror σ} (room : Option Nat) (text : String) :
    (fitting room text : Call σ String).Mirrors N (Failure.through fault) id
      (fitting room text) := by
  cases room with
  | none => exact .pure _
  | some n => exact .ite (fun _ => .fail _) fun _ => .pure _

section Faithful

variable (hM : M.Faithful fault reach)
include hM

theorem showAttributeOn_mirrors {σ : Type} {N : Mirror σ} {p : Part σ Driver}
    (hp : p.Mirrored N (mirrorOf M fault)) {interrupts interrupts' : Interrupts σ}
    (hcapture : (captureOn p interrupts).Mirrors N (Failure.through fault) id
      (captureOn p interrupts'))
    (index : Nat) (room : Option Nat) :
    (showAttributeOn p interrupts index room).Mirrors N (Failure.through fault) id
      (showAttributeOn p interrupts' index room) := by
  unfold showAttributeOn
  cases Attribute.ofIndex? index with
  | none => exact .fail _
  | some a =>
    exact .bind (a.textOn_mirrors hM hp hcapture) fun text => fitting_mirrors room text

theorem storeAttribute_mirrors (index : Nat) (input : String) :
    (storeAttribute index input).Mirrors (mirrorOf M fault) (Failure.through fault) id
      (storeAttribute index input) := by
  unfold storeAttribute
  cases Attribute.ofIndex? index with
  | none => exact .fail _
  | some a =>
    refine .bind (log_mirrors hM (.attributeStored a.name input)) fun _ => ?_
    have hgive := Action.Mirrors.give (M := mirrorOf M fault) (e := Failure.through fault) (v := id)
      (a.parse input)
    rw [a.parse_through] at hgive
    exact .bind hgive fun s => s.apply_mirrors hM

/-! ### Starting and stopping -/

theorem bringUp_mirrors (c : Config) :
    (bringUp c).Mirrors (Fifo.mirrorOf M) (Failure.through fault) id (bringUp c) := by
  refine .bind (Fifo.onBoard_mirrors (Converter.init_mirrors hM)) fun _ => ?_
  refine .bind (.recover (Fifo.setWatermark_mirrors hM _) fun e => ?_) fun _ => ?_
  · exact .bind (.update fun _ hf => ⟨rfl, hf⟩) fun _ => .fail e
  refine .bind (.recover (Fifo.registerIrq_mirrors hM _) fun e => ?_) fun _ => ?_
  · exact .bind (.attempt (Fifo.unsetWatermark_mirrors hM)) fun _ =>
      .bind (.update fun _ hf => ⟨rfl, hf⟩) fun _ => .fail e
  · exact Fifo.onBoard_mirrors (hM.log _)

theorem init_mirrors (c : Config) :
    (init c).Mirrors M (Failure.through fault) (mirrorOf M fault).image (init c) := by
  intro b hb
  obtain ⟨hrun, hinv⟩ := bringUp_mirrors hM c { board := b } hb
  change bringUp c { board := M.image b } = _ at hrun
  unfold init
  rw [hrun]
  generalize bringUp c { board := b } = x at hinv
  obtain ⟨o, f⟩ := x
  cases o with
  | ok _ => exact ⟨rfl, hinv⟩
  | error e => exact ⟨rfl, hinv⟩
  | fault x => exact ⟨rfl, hinv⟩

theorem takeDown_mirrors : takeDown.Mirrors (mirrorOf M fault) id id takeDown := by
  refine .bind (.recover (onFifo_mirrors (Fifo.unregisterIrq_mirrors hM)) fun e => ?_) fun _ => ?_
  · exact log_mirrors hM (.unbindFailed e)
  refine .bind (.recover (onFifo_mirrors (Fifo.unsetWatermark_mirrors hM)) fun e => ?_) fun _ => ?_
  · exact log_mirrors hM (.unsetFailed e)
  exact .bind (.update fun _ hd => ⟨rfl, hd⟩) fun _ => log_mirrors hM _

end Faithful

end Driver

end AdcCapture
