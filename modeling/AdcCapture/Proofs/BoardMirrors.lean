/-
  Typed calls that mirror themselves. A mirror of boards is faithful (`Mirror.Faithful`) if what is
  below the typed calls mirrors itself: notes, calls of the platform, and the accesses over the bus,
  of which only the code of a failure may be seen otherwise. Then every call to the converter
  mirrors itself, for it is put together from these.
-/
import AdcCapture.Proofs.BoardCalls
import AdcCapture.Proofs.Mirrors

namespace AdcCapture

/-! ## Failures of the bus in a mirror -/

/-- A cause, with a failure of the bus as it is seen in a mirror. -/
def Failure.through (fault : BusFault → BusFault) : Cause → Cause
  | bus f => bus (fault f)
  | e => e

def Message.through (fault : BusFault → BusFault) : Message → Message
  | unbindFailed e => unbindFailed (e.through fault)
  | unsetFailed e => unsetFailed (e.through fault)
  | interruptFailed e => interruptFailed (e.through fault)
  | abandonFailed e => abandonFailed (e.through fault)
  | m => m

def Answer.through (fault : BusFault → BusFault) : Answer → Answer
  | failure e => failure (e.through fault)
  | busFailure f => busFailure (fault f)
  | a => a

namespace Answer

variable {α : Type} (fault : BusFault → BusFault)

theorem ofOutcome_through (f : α → Value) (o : Outcome Cause α) :
    ofOutcome f ((o.mapError (Failure.through fault)).map id) = (ofOutcome f o).through fault := by
  cases o <;> rfl

theorem ofBus_through (f : α → Value) (o : Outcome BusFault α) :
    ofBus f ((o.mapError fault).map id) = (ofBus f o).through fault := by
  cases o <;> rfl

theorem outcome_through (a : Answer) :
    (a.through fault).outcome = (a.outcome.mapError (Failure.through fault)).map id := by
  cases a <;> rfl

theorem asCall_mirrors {M : Mirror Board} {run : Board → Answer × Board}
    (h : M.Respected (through fault) run) :
    (asCall run).Mirrors M (Failure.through fault) id (asCall run) := by
  intro b hb
  obtain ⟨hrun, hinv⟩ := h b hb
  unfold asCall
  rw [hrun]
  exact ⟨Prod.ext (outcome_through fault _) rfl, hinv⟩

end Answer

/-! ## Faithful mirrors -/

/-- What is done to a board below the typed calls mirrors itself, at the registers that are within
reach, which those of the typed calls are. -/
structure Mirror.Faithful (M : Mirror Board) (fault : BusFault → BusFault)
    (reach : UInt16 → Prop) : Prop where
  reach_of_le : ∀ {a}, a ≤ 0x7FFF → reach a
  irq : ∀ b, (M.image b).irq = b.irq
  allocation : Board.allocation.Mirrored M (.still Allocator)
  log : ∀ {ε ε' : Type} {e : ε → ε'} (m : Message),
    (Board.log m : Action Board ε Unit).Mirrors M e id (Board.log (m.through fault))
  offer : ∀ {ε ε' : Type} {e : ε → ε'} (n : Nat) (taken : Bool),
    (Board.note (.sinkWrite n taken) : Action Board ε Unit).Mirrors M e id
      (Board.note (.sinkWrite n taken))
  platform : ∀ c irq, (Board.platform c irq).Mirrors M id id (Board.platform c irq)
  readRegister : ∀ {a}, reach a → (Board.readRegister a).Mirrors M fault id (Board.readRegister a)
  writeRegister : ∀ {a} (v), reach a →
    (Board.writeRegister a v).Mirrors M fault id (Board.writeRegister a v)
  readData : ∀ n, (Board.readData n).Mirrors M fault id (Board.readData n)

/-- An access that is noted as the counterpart of how the other one is noted. -/
theorem Board.traced_mirrors {M : Mirror Board} {fault : BusFault → BusFault} {α α' : Type}
    {v : α → α'} {a : Action Board UInt32 α} {a' : Action Board UInt32 α'}
    (ha : a.Mirrors M id v a') {kind kind' : UInt32 → BusFault}
    (hkind : ∀ k, kind' k = fault (kind k)) {event : Except BusFault α → Event}
    {event' : Except BusFault α' → Event}
    (hevent : ∀ r, (note (event r) : Action Board BusFault Unit).Mirrors M fault id
      (note (event' (bothMap fault v r)))) :
    (traced kind event a).Mirrors M fault v (traced kind' event' a') :=
  .bind (.attempt (.mapError ha hkind)) fun r => .bind (hevent r) fun _ => .ofExcept r

/-! ## The register map -/

theorem Threshold.low_le (t : Threshold) : t.field.low ≤ 0x7FFF := by
  cases t <;> decide

theorem Threshold.high_le (t : Threshold) : t.field.high ≤ 0x7FFF := by
  cases t <;> decide

theorem Pin.directionField_le (p : Pin) : p.directionField.address ≤ 0x7FFF := by
  cases p <;> decide

theorem Pin.functionField_le (p : Pin) : p.functionField.address ≤ 0x7FFF := by
  cases p <;> decide

/-- The addresses of the documented map have fifteen bits. -/
theorem Register.documented_le {a : UInt16} (h : ¬ last < a) : a ≤ 0x7FFF :=
  UInt16.le_trans (UInt16.not_lt.mp h) (by decide)

/-! ## Calls by name -/

namespace ConverterStep

section Calls

variable {M : Mirror Board} {fault : BusFault → BusFault} {α β : Type} (f : α → Value)

theorem call_respected {c : Call Board α} (h : c.Mirrors M (Failure.through fault) id c) :
    M.Respected (Answer.through fault) (call f c) := by
  intro b hb
  obtain ⟨hrun, hinv⟩ := h b hb
  unfold call
  rw [hrun]
  exact ⟨Prod.ext (Answer.ofOutcome_through fault f _) rfl, hinv⟩

theorem busCall_respected {c : Action Board BusFault α} (h : c.Mirrors M fault id c) :
    M.Respected (Answer.through fault) (busCall f c) := by
  intro b hb
  obtain ⟨hrun, hinv⟩ := h b hb
  unfold busCall
  rw [hrun]
  exact ⟨Prod.ext (Answer.ofBus_through fault f _) rfl, hinv⟩

theorem callWith_respected {c : β → Call Board α}
    (h : ∀ x, (c x).Mirrors M (Failure.through fault) id (c x)) (x : Option β) :
    M.Respected (Answer.through fault) (callWith f c x) := by
  cases x with
  | none => exact fun b hb => ⟨rfl, hb⟩
  | some x => exact call_respected f (h x)

end Calls

/-- The addresses that go to the bus as the caller gave them. A step that refuses what is outside of
the documented map has none. -/
def addresses : ConverterStep → List UInt16
  | read a => [a]
  | write a _ => [a]
  | busRead a => [a]
  | busWrite a _ => [a]
  | _ => []

end ConverterStep

/-! ## Calls to the converter -/

section Faithful

variable {M : Mirror Board} {fault : BusFault → BusFault} {reach : UInt16 → Prop}
  (hM : M.Faithful fault reach)
include hM

namespace Converter

section Registers

variable {a : UInt16} (ha : reach a)
include ha

theorem read_mirrors : (read a).Mirrors M (Failure.through fault) id (read a) :=
  .mapError (hM.readRegister ha) fun _ => rfl

theorem write_mirrors (v : UInt8) : (write a v).Mirrors M (Failure.through fault) id (write a v) :=
  .mapError (hM.writeRegister v ha) fun _ => rfl

end Registers

theorem readData_mirrors (n : Nat) :
    (readData n).Mirrors M (Failure.through fault) id (readData n) :=
  .mapError (hM.readData n) fun _ => rfl

section Fields

variable {f : Field} (hf : f.address ≤ 0x7FFF)
include hf

theorem getField_mirrors : (getField f).Mirrors M (Failure.through fault) id (getField f) :=
  .bind (read_mirrors hM (hM.reach_of_le hf)) fun byte => .pure (f.get byte)

theorem setField_mirrors (v : UInt8) :
    (setField f v).Mirrors M (Failure.through fault) id (setField f v) :=
  .bind (read_mirrors hM (hM.reach_of_le hf)) fun byte =>
    write_mirrors hM (hM.reach_of_le hf) (f.put v byte)

end Fields

section WideFields

variable {f : WideField} (hlow : f.low ≤ 0x7FFF) (hhigh : f.high ≤ 0x7FFF)
include hlow hhigh

theorem getWide_mirrors : (getWide f).Mirrors M (Failure.through fault) id (getWide f) :=
  .bind (read_mirrors hM (hM.reach_of_le hhigh)) fun high =>
    .bind (read_mirrors hM (hM.reach_of_le hlow)) fun low => .pure (f.join high low)

theorem setWide_mirrors (v : UInt16) :
    (setWide f v).Mirrors M (Failure.through fault) id (setWide f v) :=
  .bind (write_mirrors hM (hM.reach_of_le hlow) _) fun _ =>
    write_mirrors hM (hM.reach_of_le hhigh) _

theorem getSigned_mirrors : (getSigned f).Mirrors M (Failure.through fault) id (getSigned f) :=
  .bind (getWide_mirrors hM hlow hhigh) fun v => .pure (f.toSigned v)

theorem setSigned_mirrors (code : Int) :
    (setSigned f code).Mirrors M (Failure.through fault) id (setSigned f code) :=
  .ite (fun _ => .fail _) fun _ => setWide_mirrors hM hlow hhigh _

end WideFields

theorem productId_mirrors : productId.Mirrors M (Failure.through fault) id productId :=
  getWide_mirrors hM (by decide) (by decide)

theorem init_mirrors : init.Mirrors M (Failure.through fault) id init :=
  .bind (write_mirrors hM (hM.reach_of_le (by decide)) _) fun _ =>
    .bind (productId_mirrors hM) fun x => .ite (fun _ => .pure ()) fun _ =>
      .bind (hM.log (.unexpectedProduct x)) fun _ => .fail _

theorem readDocumented_mirrors (a : UInt16) :
    (readDocumented a).Mirrors M (Failure.through fault) id (readDocumented a) :=
  .ite (fun _ => .fail _) fun h => read_mirrors hM (hM.reach_of_le (Register.documented_le h))

theorem writeDocumented_mirrors (a : UInt16) (v : UInt8) :
    (writeDocumented a v).Mirrors M (Failure.through fault) id (writeDocumented a v) :=
  .ite (fun _ => .fail _) fun h => write_mirrors hM (hM.reach_of_le (Register.documented_le h)) v

theorem setFifoMode_mirrors (m : FifoMode) :
    (setFifoMode m).Mirrors M (Failure.through fault) id (setFifoMode m) :=
  setField_mirrors hM (by decide) _

theorem setWatermark_mirrors (w : UInt16) :
    (setWatermark w).Mirrors M (Failure.through fault) id (setWatermark w) :=
  .ite (fun _ => .fail _) fun _ => setWide_mirrors hM (by decide) (by decide) w

theorem fifoFull_mirrors : fifoFull.Mirrors M (Failure.through fault) id fifoFull :=
  .bind (read_mirrors hM (hM.reach_of_le (by decide))) fun _ => .pure _

theorem setPinDirection_mirrors (p : Pin) (d : PinDirection) :
    (setPinDirection p d).Mirrors M (Failure.through fault) id (setPinDirection p d) :=
  setField_mirrors hM p.directionField_le _

theorem pinFunction_mirrors (p : Pin) :
    (pinFunction p).Mirrors M (Failure.through fault) id (pinFunction p) :=
  .bind (getField_mirrors hM p.functionField_le) fun _ => .pure _

theorem setPinFunction_mirrors (p : Pin) (f : PinFunction) :
    (setPinFunction p f).Mirrors M (Failure.through fault) id (setPinFunction p f) :=
  setField_mirrors hM p.functionField_le _

end Converter

open Converter in
theorem ConverterStep.run_respected (s : ConverterStep) (h : ∀ a ∈ s.addresses, reach a) :
    M.Respected (Answer.through fault) s.run := by
  have hget : ∀ {f : Field}, f.address ≤ 0x7FFF → ∀ {α : Type} (g : UInt8 → α),
      (do return g (← getField f) : Call Board α).Mirrors M (Failure.through fault) id
        (do return g (← getField f)) :=
    fun hf _ _ => .bind (getField_mirrors hM hf) fun _ => .pure _
  cases s with
  | init => exact call_respected _ (init_mirrors hM)
  | productId => exact call_respected _ (productId_mirrors hM)
  | read a => exact call_respected _ (read_mirrors hM (h a List.mem_cons_self))
  | write a v => exact call_respected _ (write_mirrors hM (h a List.mem_cons_self) v)
  | readDocumented a => exact call_respected _ (readDocumented_mirrors hM a)
  | writeDocumented a v => exact call_respected _ (writeDocumented_mirrors hM a v)
  | fifoMode => exact call_respected _ (hget (by decide) _)
  | setFifoMode c => exact call_respected _ (setFifoMode_mirrors hM _)
  | watermark => exact call_respected _ (getWide_mirrors hM (by decide) (by decide))
  | setWatermark w => exact call_respected _ (setWatermark_mirrors hM w)
  | status => exact call_respected _ (read_mirrors hM (hM.reach_of_le (by decide)))
  | fifoFull => exact call_respected _ (fifoFull_mirrors hM)
  | readData n => exact call_respected _ (readData_mirrors hM n)
  | pinDirection i => exact callWith_respected _ (fun p => hget p.directionField_le _) _
  | setPinDirection i d => exact callWith_respected _ (fun p => setPinDirection_mirrors hM p d) _
  | pinFunctionCode i =>
    exact callWith_respected _ (fun p => getField_mirrors hM p.functionField_le) _
  | pinFunction i => exact callWith_respected _ (pinFunction_mirrors hM) _
  | setPinFunction i c =>
    exact callWith_respected _ (fun (p, f) => setPinFunction_mirrors hM p f) _
  | offset => exact call_respected _ (getSigned_mirrors hM (by decide) (by decide))
  | setOffset c => exact call_respected _ (setSigned_mirrors hM (by decide) (by decide) c)
  | hysteresis => exact call_respected _ (getWide_mirrors hM (by decide) (by decide))
  | setHysteresis c => exact call_respected _ (setWide_mirrors hM (by decide) (by decide) c)
  | threshold t => exact call_respected _ (getSigned_mirrors hM t.low_le t.high_le)
  | setThreshold t c => exact call_respected _ (setSigned_mirrors hM t.low_le t.high_le c)
  | filter => exact call_respected _ (hget (by decide) _)
  | setFilter c => exact call_respected _ (setField_mirrors hM (by decide) _)
  | sincRateCode => exact call_respected _ (getField_mirrors hM (by decide))
  | setSincRate c => exact callWith_respected _ (fun _ => setField_mirrors hM (by decide) _) _
  | operatingModeBits => exact call_respected _ (getField_mirrors hM (by decide))
  | operatingMode => exact call_respected _ (hget (by decide) _)
  | setOperatingMode c => exact callWith_respected _ (fun _ => setField_mirrors hM (by decide) _) _
  | busRead a => exact busCall_respected _ (hM.readRegister (h a List.mem_cons_self))
  | busWrite a v => exact busCall_respected _ (hM.writeRegister v (h a List.mem_cons_self))

end Faithful

end AdcCapture
