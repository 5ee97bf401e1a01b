/-
  Every call tells the truth about the bus. What runs after a failure, to give buffers back or to
  take the platform down, makes no access and hands the failure on (`teardown_silent`); every other
  call is a sequence of accesses and of steps that make none. So the answer of a step is a failure
  of the bus just when an access of the step has failed, it is the failure of that access, and the
  access is the last of the step (`FifoStep.run_tells`). The handling of an interrupt is left out:
  what its consumer fails with is not its own.
-/
import AdcCapture.Proofs.BusFaults
import AdcCapture.Proofs.Refusals

namespace AdcCapture

variable {ε α β : Type}

/-! ## Calls to the converter -/

namespace Converter

open Failure (busFault?)

theorem read_truthful (a : UInt16) : (read a).Truthful id busFault? :=
  (Board.readRegister_truthful a).mapError fun _ => rfl

theorem write_truthful (a : UInt16) (v : UInt8) : (write a v).Truthful id busFault? :=
  (Board.writeRegister_truthful a v).mapError fun _ => rfl

theorem readData_truthful (n : Nat) : (readData n).Truthful id busFault? :=
  (Board.readData_truthful n).mapError fun _ => rfl

theorem getField_truthful (f : Field) (g : UInt8 → α) :
    (do return g (← getField f) : Call Board α).Truthful id busFault? :=
  .bind (.bind (read_truthful _) fun _ => .pure _) fun _ => .pure _

theorem setField_truthful (f : Field) (v : UInt8) : (setField f v).Truthful id busFault? :=
  .bind (read_truthful _) fun _ => write_truthful _ _

theorem getWide_truthful (f : WideField) : (getWide f).Truthful id busFault? :=
  .bind (read_truthful _) fun _ => .bind (read_truthful _) fun _ => .pure _

theorem setWide_truthful (f : WideField) (v : UInt16) : (setWide f v).Truthful id busFault? :=
  .bind (write_truthful _ _) fun _ => write_truthful _ _

theorem getSigned_truthful (f : WideField) : (getSigned f).Truthful id busFault? :=
  .bind (getWide_truthful f) fun _ => .pure _

/-- A call that may refuse its argument before it starts. -/
theorem guarded_truthful {p : Prop} [Decidable p] {a : Call Board α}
    (ha : a.Truthful id busFault?) :
    (if p then .fail .invalidArgument else a : Call Board α).Truthful id busFault? := by
  split
  · exact .fail rfl
  · exact ha

theorem setSigned_truthful (f : WideField) (code : Int) :
    (setSigned f code).Truthful id busFault? := guarded_truthful (setWide_truthful _ _)

theorem setWatermark_truthful (w : UInt16) : (setWatermark w).Truthful id busFault? :=
  guarded_truthful (setWide_truthful _ _)

theorem readDocumented_truthful (a : UInt16) : (readDocumented a).Truthful id busFault? :=
  guarded_truthful (read_truthful a)

theorem writeDocumented_truthful (a : UInt16) (v : UInt8) :
    (writeDocumented a v).Truthful id busFault? := guarded_truthful (write_truthful a v)

theorem fifoFull_truthful : fifoFull.Truthful id busFault? :=
  .bind (read_truthful _) fun _ => .pure _

theorem init_truthful : init.Truthful id busFault? := by
  refine .bind (write_truthful _ _) fun _ => .bind (getWide_truthful _) fun id => ?_
  split
  · exact .pure ()
  · exact .bind (Board.log_truthful _) fun _ => .fail rfl

end Converter

/-! ## Calls to a descriptor -/

namespace Fifo

open Failure (busFault?)

theorem onBoard_truthful {bus? : ε → Option BusFault} {a : Action Board ε α}
    (ha : a.Truthful id bus?) : (onBoard a).Truthful Fifo.board bus? := fun f => ha f.board

theorem disable_truthful : disable.Truthful Fifo.board busFault? :=
  onBoard_truthful (Converter.setField_truthful _ _)

theorem unsetWatermark_truthful : unsetWatermark.Truthful Fifo.board busFault? :=
  .attempt_bind disable_truthful (fun _ => .bind (.update fun _ => rfl) fun _ => .pure _)
    fun _ _ => ⟨.refl _, rfl⟩

theorem newBuffers_truthful (w : Nat) : (newBuffers w).Truthful id busFault? := by
  have hallocate : (Action.within Board.allocation (Buffers.allocate w)).Truthful id
      fun _ => none :=
    .silent (fun _ => ⟨rfl, rfl, rfl, rfl, trivial⟩) fun _ => Outcome.told?_of_none (fun _ => rfl) _
  exact hallocate.recover (fun _ => rfl) fun _ => .bind (Board.log_truthful _) fun _ => .fail rfl

theorem setWatermark_truthful (w : Nat) : (setWatermark w).Truthful Fifo.board busFault? := by
  refine .bind .state fun f => ?_
  split
  · exact .fail rfl
  · refine .bind unsetWatermark_truthful fun _ => ?_
    refine .bind (onBoard_truthful (newBuffers_truthful w)) fun b => ?_
    refine .bind (onBoard_truthful (Converter.setWatermark_truthful _)) fun _ => ?_
    exact .bind (.update fun _ => rfl) fun _ => onBoard_truthful (Board.log_truthful _)

theorem arm_truthful : arm.Truthful Fifo.board busFault? := by
  refine .bind .state fun f => ?_
  split
  · exact .fail rfl
  · exact onBoard_truthful (Converter.setField_truthful _ _)

theorem readSamples_truthful : readSamples.Truthful Fifo.board busFault? := by
  refine .bind .state fun f => ?_
  split
  · exact .fail rfl
  · refine .bind (onBoard_truthful (Converter.readData_truthful _)) fun raw => ?_
    refine .bind (.update fun _ => rfl) fun _ => .bind (.give ?_) fun b => .update fun _ => rfl
    unfold Buffers.format Sample.decode
    split <;> rfl

/-! ### Binding the interrupt -/

/-- Taking the platform side down makes no access and cannot fail. -/
theorem teardown_silent (irq : UInt32) (enabled : Bool) (b : Board) :
    ∃ c, (teardown irq enabled : Action Board ε Unit) b = (.ok (), c) ∧ b.Makes [] c := by
  obtain ⟨c, _, hrun, -⟩ := teardown_goesThrough (ε := ε) irq enabled b
  have hsilent := (teardown_obeys (ε := ε) Board.platform_silent Board.log_silent irq enabled b
    trivial).allowed
  rw [hrun] at hsilent
  exact ⟨c, hrun, hsilent⟩

theorem teardown_truthful {bus? : ε → Option BusFault} (irq : UInt32) (enabled : Bool) :
    (teardown irq enabled : Action Board ε Unit).Truthful id bus? := by
  intro b
  obtain ⟨c, hrun, hsilent⟩ := teardown_silent (ε := ε) irq enabled b
  rw [hrun]
  exact .silent hsilent

theorem setUpPlatform_truthful (irq : UInt32) : (setUpPlatform irq).Truthful id busFault? := by
  have hline : ∀ c, (lineError c : Call Board Unit).Truthful id busFault? :=
    fun c => .bind (Board.log_truthful _) fun _ => .fail rfl
  have hcontroller : ∀ c, (controllerError c : Call Board Unit).Truthful id busFault? :=
    fun c => .bind (Board.log_truthful _) fun _ => .fail rfl
  have hcall : ∀ {c irq} {h : PlatformCall → Call Board Unit}, (∀ c, (h c).Truthful id busFault?) →
      ((Board.platform c irq).recover h).Truthful id busFault? :=
    fun hh => .recover (Board.platform_truthful _ _) (fun _ => rfl) hh
  have hrelease : (releaseLine : Call Board Unit).Truthful id busFault? := hcall fun _ => .pure ()
  have hremove : (removeController : Call Board Unit).Truthful id busFault? :=
    hcall fun _ => .pure ()
  refine .bind (hcall hline) fun _ => ?_
  refine .bind (hcall fun c => .bind hrelease fun _ => hline c) fun _ => ?_
  refine .bind (hcall fun c => .bind hrelease fun _ => hcontroller c) fun _ => ?_
  refine .bind (hcall fun c => .bind hremove fun _ => .bind hrelease fun _ => hcontroller c)
    fun _ => ?_
  exact .recover
    (.bind (Board.platform_truthful _ _) fun _ => Board.platform_truthful _ _) (fun _ => rfl)
    fun c => .bind (teardown_truthful irq false) fun _ => hcontroller c

theorem registerIrq_truthful (i : Nat) : (registerIrq i).Truthful Fifo.board busFault? := by
  refine .bind .state fun f => ?_
  split
  · exact .fail rfl
  · cases Pin.ofIndex? i with
    | none => exact .fail rfl
    | some pin =>
      have hroute : (routePin pin).Truthful id busFault? :=
        .bind (Converter.setField_truthful _ _) fun _ => Converter.setField_truthful _ _
      -- the platform goes down without an access, and the failure of the pin is handed on
      have hrouted : ((routePin pin).recover fun e => do
          teardown f.board.irq true
          .fail e : Call Board Unit).Truthful id busFault? := by
        refine hroute.recover_with fun e b => ?_
        obtain ⟨c, hdown, hsilent⟩ := teardown_silent (ε := Cause) f.board.irq true b
        rw [Action.bind_ok _ hdown]
        exact ⟨hsilent, rfl⟩
      refine .bind (onBoard_truthful (setUpPlatform_truthful _)) fun _ => ?_
      refine .bind (onBoard_truthful hrouted) fun _ => ?_
      exact .bind (onBoard_truthful (Board.log_truthful _)) fun _ => .update fun _ => rfl

theorem unregisterIrq_truthful : unregisterIrq.Truthful Fifo.board busFault? := by
  refine .bind .state fun f => ?_
  split
  · exact .pure ()
  · rename_i x _
    refine .bind (.update fun _ => rfl) fun _ => ?_
    refine .attempt_bind (onBoard_truthful (Converter.setField_truthful _ _))
      (fun _ => .bind (onBoard_truthful (teardown_truthful _ _)) fun _ => .pure _) fun e g => ?_
    obtain ⟨c, hdown, hsilent⟩ := teardown_silent (ε := Cause) x.irq true g.board
    rw [Action.bind_ok _ (onBoard_eq hdown)]
    exact ⟨hsilent, rfl⟩

end Fifo

/-! ## Steps -/

/-- The bus failure that an answer tells of. -/
def Answer.busFault? : Answer → Option BusFault
  | failure e => e.busFault?
  | busFailure e => some e
  | _ => none

namespace ConverterStep

open Converter
open Failure (busFault?)

/-- Wherever the step is made, its answer tells the truth about the bus. -/
def Truthful (run : Board → Answer × Board) : Prop :=
  ∀ b : Board, b.Tells (run b).1.busFault? (run b).2

theorem call_truthful {f : α → Value} {a : Call Board α} (ha : a.Truthful id busFault?) :
    Truthful (call f a) := by
  intro b
  have htells := ha b
  unfold call
  rcases hrun : a b with ⟨o, c⟩
  rw [hrun] at htells
  cases o <;> exact htells

theorem callWith_truthful {f : α → Value} {a : β → Call Board α} (x : Option β)
    (ha : ∀ x, (a x).Truthful id busFault?) : Truthful (callWith f a x) := by
  cases x with
  | none => exact fun b => .silent (.refl b)
  | some x => exact call_truthful (ha x)

theorem busCall_truthful {f : α → Value} {a : Action Board BusFault α}
    (ha : a.Truthful id some) : Truthful (busCall f a) := by
  intro b
  have htells := ha b
  unfold busCall
  rcases hrun : a b with ⟨o, c⟩
  rw [hrun] at htells
  cases o <;> exact htells

theorem run_truthful (s : ConverterStep) : Truthful s.run := by
  have hset := setField_truthful
  have hread := read_truthful
  have hwhole : ∀ f, (getField f).Truthful id busFault? :=
    fun f => .bind (read_truthful _) fun _ => .pure _
  cases s with
  | init => exact call_truthful init_truthful
  | productId => exact call_truthful (getWide_truthful _)
  | read a => exact call_truthful (hread a)
  | write a v => exact call_truthful (write_truthful a v)
  | readDocumented a => exact call_truthful (readDocumented_truthful a)
  | writeDocumented a v => exact call_truthful (writeDocumented_truthful a v)
  | fifoMode => exact call_truthful (getField_truthful _ _)
  | setFifoMode c => exact call_truthful (hset _ _)
  | watermark => exact call_truthful (getWide_truthful _)
  | setWatermark w => exact call_truthful (setWatermark_truthful w)
  | status => exact call_truthful (hread _)
  | fifoFull => exact call_truthful fifoFull_truthful
  | readData n => exact call_truthful (readData_truthful n)
  | pinDirection i => exact callWith_truthful _ fun _ => getField_truthful _ _
  | setPinDirection i d => exact callWith_truthful _ fun _ => hset _ _
  | pinFunctionCode i => exact callWith_truthful _ fun _ => hwhole _
  | pinFunction i => exact callWith_truthful _ fun _ => getField_truthful _ _
  | setPinFunction i c => exact callWith_truthful _ fun _ => hset _ _
  | offset => exact call_truthful (getSigned_truthful _)
  | setOffset c => exact call_truthful (setSigned_truthful _ c)
  | hysteresis => exact call_truthful (getWide_truthful _)
  | setHysteresis c => exact call_truthful (setWide_truthful _ c)
  | threshold t => exact call_truthful (getSigned_truthful _)
  | setThreshold t c => exact call_truthful (setSigned_truthful _ c)
  | filter => exact call_truthful (getField_truthful _ _)
  | setFilter c => exact call_truthful (hset _ _)
  | sincRateCode => exact call_truthful (hwhole _)
  | setSincRate c => exact callWith_truthful _ fun _ => hset _ _
  | operatingModeBits => exact call_truthful (hwhole _)
  | operatingMode => exact call_truthful (getField_truthful _ _)
  | setOperatingMode c => exact callWith_truthful _ fun _ => hset _ _
  | busRead a => exact busCall_truthful (Board.readRegister_truthful a)
  | busWrite a v => exact busCall_truthful (Board.writeRegister_truthful a v)

end ConverterStep

namespace FifoStep

/-- The step calls the descriptor or its converter: it is not one that changes the board from
outside, and not an interrupt. -/
def Calls : FifoStep → Prop
  | board _ => False
  | interrupt _ => False
  | _ => True

theorem call_tells {a : Call Fifo Unit} (ha : a.Truthful Fifo.board Failure.busFault?) (f : Fifo) :
    f.board.Tells (call a f).1.answer.busFault? (call a f).2.board := by
  have htells := ha f
  unfold call
  rcases hrun : a f with ⟨o, g⟩
  rw [hrun] at htells
  cases o <;> exact htells

/-- Whatever is asked of a descriptor or of its converter, whichever accesses and platform calls
fail: the answer is a failure of the bus just when an access that was made has failed, with that
failure, and no access is made after it. -/
theorem run_tells (s : FifoStep) (hs : s.Calls) (f : Fifo) :
    f.board.Tells (s.run f).1.answer.busFault? (s.run f).2.board := by
  cases s with
  | board s => exact hs.elim
  | converter s => exact s.run_truthful f.board
  | setWatermark w => exact call_tells (Fifo.setWatermark_truthful w) f
  | unsetWatermark => exact call_tells Fifo.unsetWatermark_truthful f
  | arm => exact call_tells Fifo.arm_truthful f
  | disable => exact call_tells Fifo.disable_truthful f
  | readSamples => exact call_tells Fifo.readSamples_truthful f
  | registerIrq i => exact call_tells (Fifo.registerIrq_truthful i) f
  | unregisterIrq => exact call_tells Fifo.unregisterIrq_truthful f
  | finalise => exact .silent (.refl _)
  | samples start count => exact .silent (.refl _)
  | interrupt consumer => exact hs.elim

/-- The second access fails, that of the write, and no call of the platform succeeds: the platform
is still taken down, and the failure is the one that is told. -/
theorem run_tells_unrestored :
    let f : Fifo := {
      board := {
        faults := { planned := fun k _ => if k = 1 then some 9 else none }
        refuses := fun _ _ => true }
      binding := some ⟨.gp2, 7⟩ }
    unregisterIrq.Calls ∧
      f.board.Tells (unregisterIrq.run f).1.answer.busFault? (unregisterIrq.run f).2.board ∧
      (unregisterIrq.run f).1.answer.busFault? = some (.code 9) ∧
      (unregisterIrq.run f).2.board.accesses = 2 ∧ (unregisterIrq.run f).2.board.calls = 4 := by
  intro f
  have hrun : (unregisterIrq.run f).1.answer.busFault? = some (.code 9) ∧
      (unregisterIrq.run f).2.board.accesses = 2 ∧ (unregisterIrq.run f).2.board.calls = 4 := by
    decide +kernel
  exact ⟨trivial, run_tells unregisterIrq trivial f, hrun⟩

end FifoStep

end AdcCapture
