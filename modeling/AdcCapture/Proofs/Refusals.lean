/-
  Refusals of an argument. A call refuses up front (`Action.RefusesFirst`) if it has done nothing
  yet when it says that its argument is invalid. Most calls never say so (`Action.NeverInvalid`):
  what they fail with comes from the bus, from the platform or from the allocator. A sequence
  refuses up front if its first call does and no later one ever refuses, so the two notions go
  through every call together, down to the steps of a board and of a descriptor
  (`ConverterStep.run_refused`, `FifoStep.run_refused`).
-/
import AdcCapture.Proofs.DescriptorRuns

namespace AdcCapture

variable {σ τ ε α β : Type}

/-- The call never fails because of its argument. -/
def Action.NeverInvalid (a : Call σ α) : Prop := ∀ s t, a s ≠ (.error .invalidArgument, t)

/-- If the call fails because of its argument, it has done nothing. -/
def Action.RefusesFirst (a : Call σ α) : Prop :=
  ∀ s t, a s = (.error .invalidArgument, t) → t = s

namespace Action.NeverInvalid

theorem pure (v : α) : (Pure.pure v : Call σ α).NeverInvalid := fun _ _ h => nomatch h

theorem state : (Action.state : Call σ σ).NeverInvalid := fun _ _ h => nomatch h

theorem update (f : σ → σ) : (Action.update f : Call σ Unit).NeverInvalid := fun _ _ h => nomatch h

theorem fail {e : Cause} (he : e ≠ .invalidArgument) :
    (Action.fail e : Call σ α).NeverInvalid := by
  intro s t h
  cases h
  exact he rfl

theorem give {o : Outcome Cause α} (ho : o ≠ .error .invalidArgument) :
    (Action.give o : Call σ α).NeverInvalid := by
  intro s t h
  exact ho (Prod.mk.inj h).1

theorem bind {a : Call σ α} {f : α → Call σ β} (ha : a.NeverInvalid)
    (hf : ∀ v, (f v).NeverInvalid) : (a >>= f).NeverInvalid := by
  intro s t h
  rcases Action.of_bind_error _ h with h | ⟨v, u, -, h⟩
  · exact ha _ _ h
  · exact hf v _ _ h

theorem mapError {a : Action σ ε α} {f : ε → Cause} (hf : ∀ e, f e ≠ .invalidArgument) :
    (a.mapError f).NeverInvalid := by
  intro s t h
  obtain ⟨e, he, -⟩ := Action.of_mapError_error _ h
  exact hf e he.symm

theorem recover {a : Action σ ε α} {h : ε → Call σ α} (hh : ∀ e, (h e).NeverInvalid) :
    (a.recover h).NeverInvalid := by
  intro s t hs
  obtain ⟨e, u, -, hs⟩ := Action.of_recover_error _ hs
  exact hh e _ _ hs

/-- An answer to an error may hand on the error, for that is not one of an argument. -/
theorem recover_with {a : Call σ α} {h : Cause → Call σ α} (ha : a.NeverInvalid)
    (hh : ∀ e, e ≠ .invalidArgument → (h e).NeverInvalid) : (a.recover h).NeverInvalid := by
  intro s t hs
  obtain ⟨e, u, he, hs⟩ := Action.of_recover_error _ hs
  refine hh e ?_ _ _ hs
  intro hinvalid
  exact ha _ _ (hinvalid ▸ he)

/-- So may what comes after an error that was taken as a value. -/
theorem attempt_bind {a : Call σ α} {f : Except Cause α → Call σ β} (ha : a.NeverInvalid)
    (hf : ∀ r, r ≠ .error .invalidArgument → (f r).NeverInvalid) :
    (Action.attempt a >>= f).NeverInvalid := by
  intro s t h
  rcases Action.of_bind_error _ h with h | ⟨r, u, hr, h⟩
  · unfold Action.attempt at h
    split at h <;> cases h
  · refine hf r ?_ _ _ h
    intro hinvalid
    rcases Action.of_attempt _ hr with ⟨v, rfl, -⟩ | ⟨e, rfl, he⟩
    · cases hinvalid
    · exact ha _ _ (Except.error.inj hinvalid ▸ he)

theorem ofExcept {r : Except Cause α} (hr : r ≠ .error .invalidArgument) :
    (Action.ofExcept r : Call σ α).NeverInvalid := by
  cases r with
  | ok v => exact .pure v
  | error e => exact .fail fun he => hr (congrArg Except.error he)

theorem within {p : Part σ τ} {a : Call τ α} (ha : a.NeverInvalid) :
    (Action.within p a).NeverInvalid := by
  intro s t h
  obtain ⟨u, h, -⟩ := Action.of_within_error _ h
  exact ha _ _ h

theorem refusesFirst {a : Call σ α} (ha : a.NeverInvalid) : a.RefusesFirst :=
  fun s t h => absurd h (ha s t)

end Action.NeverInvalid

namespace Action.RefusesFirst

theorem fail (e : Cause) : (Action.fail e : Call σ α).RefusesFirst :=
  fun _ _ h => (Prod.mk.inj h).2.symm

theorem state_bind {f : σ → Call σ α} (hf : ∀ s, (f s).RefusesFirst) :
    (Action.state >>= f).RefusesFirst := fun s t h => hf s s t h

/-- A call on a component refuses up front if putting the component back changes nothing. -/
theorem within {p : Part σ τ} (hp : ∀ s, p.set (p.get s) s = s) {a : Call τ α}
    (ha : a.RefusesFirst) : (Action.within p a).RefusesFirst := by
  intro s t h
  obtain ⟨u, hrun, hset⟩ := Action.of_within_error _ h
  rw [hset, ha _ _ hrun, hp]

end Action.RefusesFirst

open AdcCapture.Action (NeverInvalid RefusesFirst)

/-! ## Calls to the converter -/

namespace Converter

theorem bus_ne (f : BusFault) : (Failure.bus f : Cause) ≠ .invalidArgument := fun h => nomatch h

theorem read_never (a : UInt16) : (read a).NeverInvalid := .mapError bus_ne

theorem write_never (a : UInt16) (v : UInt8) : (write a v).NeverInvalid := .mapError bus_ne

theorem readData_never (n : Nat) : (readData n).NeverInvalid := .mapError bus_ne

theorem getField_never (f : Field) : (getField f).NeverInvalid :=
  .bind (read_never _) fun _ => .pure _

theorem setField_never (f : Field) (v : UInt8) : (setField f v).NeverInvalid :=
  .bind (read_never _) fun _ => write_never _ _

theorem getWide_never (f : WideField) : (getWide f).NeverInvalid :=
  .bind (read_never _) fun _ => .bind (read_never _) fun _ => .pure _

theorem setWide_never (f : WideField) (v : UInt16) : (setWide f v).NeverInvalid :=
  .bind (write_never _ _) fun _ => write_never _ _

theorem getSigned_never (f : WideField) : (getSigned f).NeverInvalid :=
  .bind (getWide_never f) fun _ => .pure _

theorem fifoFull_never : fifoFull.NeverInvalid := .bind (read_never _) fun _ => .pure _

theorem init_never : init.NeverInvalid := by
  refine .bind (write_never _ _) fun _ => .bind (getWide_never _) fun id => ?_
  split
  · exact .pure ()
  · exact .bind (.update _) fun _ => .fail fun h => nomatch h

/-- A code inside the range of a field is never refused. -/
theorem setSigned_never {f : WideField} {code : Int} (hlow : f.minSigned ≤ code)
    (hhigh : code ≤ f.maxSigned) : (setSigned f code).NeverInvalid := by
  unfold setSigned
  rw [if_neg (by omega)]
  exact setWide_never _ _

theorem setSigned_first (f : WideField) (code : Int) : (setSigned f code).RefusesFirst := by
  unfold setSigned
  split
  · exact .fail _
  · exact (setWide_never _ _).refusesFirst

theorem setWatermark_first (w : UInt16) : (setWatermark w).RefusesFirst := by
  unfold setWatermark
  split
  · exact .fail _
  · exact (setWide_never _ _).refusesFirst

theorem readDocumented_first (a : UInt16) : (readDocumented a).RefusesFirst := by
  unfold readDocumented
  split
  · exact .fail _
  · exact (read_never a).refusesFirst

theorem writeDocumented_first (a : UInt16) (v : UInt8) : (writeDocumented a v).RefusesFirst := by
  unfold writeDocumented
  split
  · exact .fail _
  · exact (write_never a v).refusesFirst

end Converter

namespace ConverterStep

open Converter

/-- If the step answers that its argument is invalid, it has not touched the board. -/
def Refused (run : Board → Answer × Board) : Prop :=
  ∀ b c, run b = (.failure .invalidArgument, c) → c = b

theorem call_refused {f : α → Value} {a : Call Board α} (ha : a.RefusesFirst) :
    Refused (call f a) := by
  intro b c h
  unfold call at h
  rcases hrun : a b with ⟨o, d⟩
  rw [hrun] at h
  cases o with
  | ok v => cases h
  | error e =>
    cases h
    exact ha b c hrun
  | fault x => cases h

theorem callWith_refused {f : α → Value} {a : β → Call Board α} (x : Option β)
    (ha : ∀ x, (a x).RefusesFirst) : Refused (callWith f a x) := by
  cases x with
  | none => exact fun b c h => nomatch h
  | some x => exact call_refused (ha x)

theorem busCall_refused {f : α → Value} {a : Action Board BusFault α} : Refused (busCall f a) := by
  intro b c h
  unfold busCall at h
  rcases hrun : a b with ⟨o, d⟩
  rw [hrun] at h
  cases o <;> cases h

theorem getField_refused (f : Field) (g : UInt8 → α) :
    (do return g (← getField f) : Call Board α).RefusesFirst :=
  (Action.NeverInvalid.bind (getField_never f) fun _ => .pure _).refusesFirst

/-- Whatever is asked of the converter, an argument is refused before it is touched. -/
theorem run_refused (s : ConverterStep) : Refused s.run := by
  have hset := fun f v => (setField_never f v).refusesFirst
  have hread := fun a => (read_never a).refusesFirst
  cases s with
  | init => exact call_refused init_never.refusesFirst
  | productId => exact call_refused (getWide_never _).refusesFirst
  | read a => exact call_refused (hread a)
  | write a v => exact call_refused (write_never a v).refusesFirst
  | readDocumented a => exact call_refused (readDocumented_first a)
  | writeDocumented a v => exact call_refused (writeDocumented_first a v)
  | fifoMode => exact call_refused (getField_refused _ _)
  | setFifoMode c => exact call_refused (hset _ _)
  | watermark => exact call_refused (getWide_never _).refusesFirst
  | setWatermark w => exact call_refused (setWatermark_first w)
  | status => exact call_refused (hread _)
  | fifoFull => exact call_refused fifoFull_never.refusesFirst
  | readData n => exact call_refused (readData_never n).refusesFirst
  | pinDirection i => exact callWith_refused _ fun _ => getField_refused _ _
  | setPinDirection i d => exact callWith_refused _ fun _ => hset _ _
  | pinFunctionCode i => exact callWith_refused _ fun _ => (getField_never _).refusesFirst
  | pinFunction i => exact callWith_refused _ fun _ => getField_refused _ _
  | setPinFunction i c => exact callWith_refused _ fun _ => hset _ _
  | offset => exact call_refused (getSigned_never _).refusesFirst
  | setOffset c => exact call_refused (setSigned_first _ c)
  | hysteresis => exact call_refused (getWide_never _).refusesFirst
  | setHysteresis c => exact call_refused (setWide_never _ c).refusesFirst
  | threshold t => exact call_refused (getSigned_never _).refusesFirst
  | setThreshold t c => exact call_refused (setSigned_first _ c)
  | filter => exact call_refused (getField_refused _ _)
  | setFilter c => exact call_refused (hset _ _)
  | sincRateCode => exact call_refused (getField_never _).refusesFirst
  | setSincRate c => exact callWith_refused _ fun _ => hset _ _
  | operatingModeBits => exact call_refused (getField_never _).refusesFirst
  | operatingMode => exact call_refused (getField_refused _ _)
  | setOperatingMode c => exact callWith_refused _ fun _ => hset _ _
  | busRead a => exact busCall_refused
  | busWrite a v => exact busCall_refused

theorem asCall_first (s : ConverterStep) : (Answer.asCall s.run).RefusesFirst := by
  intro b c h
  unfold Answer.asCall at h
  rcases hrun : s.run b with ⟨a, d⟩
  rw [hrun] at h
  obtain ⟨houtcome, rfl⟩ := Prod.mk.inj h
  cases a with
  | failure e =>
    cases houtcome
    exact s.run_refused b d hrun
  | _ => cases houtcome

end ConverterStep

/-! ## Calls to a descriptor -/

namespace Fifo

theorem disable_never : disable.NeverInvalid := .within (Converter.setField_never _ _)

theorem unsetWatermark_never : unsetWatermark.NeverInvalid :=
  .attempt_bind disable_never fun _ hr => .bind (.update _) fun _ => .ofExcept hr

theorem newBuffers_never (w : Nat) : (newBuffers w).NeverInvalid :=
  .recover fun _ => .bind (.update _) fun _ => .fail fun h => nomatch h

theorem setWatermark_first (w : Nat) : (setWatermark w).RefusesFirst := by
  refine .state_bind fun f => ?_
  split
  · exact .fail _
  · rename_i hgood
    have h1 : 1 ≤ w := by simp at hgood; omega
    have h2 : w ≤ fifoDepth := by simp at hgood; omega
    refine (Action.NeverInvalid.bind unsetWatermark_never fun _ => ?_).refusesFirst
    refine .bind (.within (newBuffers_never w)) fun b => ?_
    rw [Converter.setWatermark_eq h1 h2]
    refine .bind (.within (Converter.setWide_never _ _)) fun _ => .bind (.update _) fun _ => ?_
    exact .within (.update _)

theorem arm_first : arm.RefusesFirst := by
  refine .state_bind fun f => ?_
  split
  · exact .fail _
  · exact (NeverInvalid.within (Converter.setField_never _ _)).refusesFirst

theorem readSamples_first : readSamples.RefusesFirst := by
  refine .state_bind fun f => ?_
  split
  · exact .fail _
  · refine (NeverInvalid.bind (.within (Converter.readData_never _)) fun raw => ?_).refusesFirst
    refine .bind (.update _) fun _ => .bind (.give ?_) fun b => .update _
    unfold Buffers.format Sample.decode
    split <;> exact fun h => nomatch h

/-- A call that goes on whatever the platform says does not fail at all. -/
theorem goesThrough_never {a : Call Board Unit} {cs : List (PlatformCall × Option UInt32)}
    (ha : a.GoesThrough cs) : a.NeverInvalid := by
  intro b c h
  obtain ⟨d, back, hrun, -⟩ := ha b
  rw [hrun] at h
  cases h

theorem setUpPlatform_never (irq : UInt32) : (setUpPlatform irq).NeverInvalid := by
  have hline : ∀ c, (lineError c : Call Board Unit).NeverInvalid :=
    fun c => .bind (.update _) fun _ => .fail fun h => nomatch h
  have hcontroller : ∀ c, (controllerError c : Call Board Unit).NeverInvalid :=
    fun c => .bind (.update _) fun _ => .fail fun h => nomatch h
  have hrelease := goesThrough_never releaseLine_goesThrough
  have hremove := goesThrough_never removeController_goesThrough
  have hdown := goesThrough_never (teardown_goesThrough irq false)
  refine .bind (.recover hline) fun _ => ?_
  refine .bind (.recover fun c => .bind hrelease fun _ => hline c) fun _ => ?_
  refine .bind (.recover fun c => .bind hrelease fun _ => hcontroller c) fun _ => ?_
  refine .bind (.recover fun c => .bind hremove fun _ => .bind hrelease fun _ => hcontroller c)
    fun _ => ?_
  exact .recover fun c => .bind hdown fun _ => hcontroller c

theorem registerIrq_first (i : Nat) : (registerIrq i).RefusesFirst := by
  refine .state_bind fun f => ?_
  split
  · exact .fail _
  · cases Pin.ofIndex? i with
    | none => exact .fail _
    | some pin =>
      have hroute : (routePin pin).NeverInvalid :=
        .bind (Converter.setField_never _ _) fun _ => Converter.setField_never _ _
      have hdown := goesThrough_never (teardown_goesThrough f.board.irq true)
      have hrouted := hroute.recover_with (h := fun e => do
        teardown f.board.irq true
        .fail e) fun e he => .bind hdown fun _ => .fail he
      refine (NeverInvalid.bind (.within (setUpPlatform_never _)) fun _ => ?_).refusesFirst
      refine .bind (.within hrouted) fun _ => .bind (.within (.update _)) fun _ => ?_
      exact .update _

theorem unregisterIrq_first : unregisterIrq.RefusesFirst := by
  refine .state_bind fun f => ?_
  split
  · exact (NeverInvalid.pure ()).refusesFirst
  · rename_i x _
    have hdown := goesThrough_never (teardown_goesThrough x.irq true)
    refine (NeverInvalid.bind (.update _) fun _ => ?_).refusesFirst
    refine .attempt_bind (.within (Converter.setField_never _ _)) fun r hr => ?_
    exact .bind (.within hdown) fun _ => .ofExcept hr

/-- What an interrupt fails with is the bus. -/
theorem handleInterrupt_never (p : Part σ Fifo) (consumer : Action σ Empty Unit) :
    (handleInterrupt p consumer).NeverInvalid := by
  refine .bind .state fun s => ?_
  split
  · exact .give fun h => nomatch h
  · refine .bind (.within Converter.fifoFull_never) fun full => ?_
    split
    · refine .bind (.mapError fun e => e.elim) fun _ => ?_
      exact .bind (.within disable_never) fun _ => .pure _
    · exact .bind (.within (.update _)) fun _ => .pure _

end Fifo

/-- The answer of a reply. -/
def FifoReply.answer : FifoReply → Answer
  | plain a _ => a
  | handled a _ _ => a

namespace FifoStep

theorem call_refused {a : Call Fifo Unit} (ha : a.RefusesFirst) {f : Fifo}
    (h : (call a f).1.answer = .failure .invalidArgument) : (call a f).2 = f := by
  unfold call at h ⊢
  rcases hrun : a f with ⟨o, g⟩
  rw [hrun] at h
  cases o with
  | ok v => cases h
  | error e =>
    cases h
    exact ha f g hrun
  | fault x => cases h

theorem onBoard_refused {run : Board → Answer × Board} (hrun : ConverterStep.Refused run) {f : Fifo}
    (h : (onBoard run f).1.answer = .failure .invalidArgument) : (onBoard run f).2 = f := by
  have hboard := hrun f.board (run f.board).2 (Prod.ext h rfl)
  change { f with board := (run f.board).2 } = f
  rw [hboard]

/-- Whatever is asked of a descriptor, an argument is refused before anything is done. -/
theorem run_refused (s : FifoStep) {f : Fifo}
    (h : (s.run f).1.answer = .failure .invalidArgument) : (s.run f).2 = f := by
  cases s with
  | board s => cases s <;> cases h
  | converter s => exact onBoard_refused s.run_refused h
  | setWatermark w => exact call_refused (Fifo.setWatermark_first w) h
  | unsetWatermark => exact call_refused Fifo.unsetWatermark_never.refusesFirst h
  | arm => exact call_refused Fifo.arm_first h
  | disable => exact call_refused Fifo.disable_never.refusesFirst h
  | readSamples => exact call_refused Fifo.readSamples_first h
  | registerIrq i => exact call_refused (Fifo.registerIrq_first i) h
  | unregisterIrq => exact call_refused Fifo.unregisterIrq_first h
  | finalise => cases h
  | samples start count => cases h
  | interrupt consumer =>
    exfalso
    change (handle (fun f => runAll consumer f) f).1.answer = _ at h
    unfold handle at h
    rcases hrun : Fifo.handleInterrupt Handling.fifoPart (consumerOf fun f => runAll consumer f)
      { fifo := f } with ⟨o, t⟩
    rw [hrun] at h
    cases o with
    | ok v => cases h
    | error e =>
      cases h
      exact Fifo.handleInterrupt_never _ _ _ _ hrun
    | fault x => cases h

end FifoStep

end AdcCapture
