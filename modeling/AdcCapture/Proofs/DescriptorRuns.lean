/-
  Runs of a descriptor. A step that handles an interrupt runs the steps of its consumer inside, so
  the states between two operations are those between the steps of a run and those inside of an
  interrupt (`FifoStep.Reaches`). An interrupt is described in full by `HandleEnds`. The platform
  calls of a descriptor are bracketed in every state that it reaches (`Reaches.bracketed`): only
  binding and unbinding call the platform, and each of them leaves whole brackets behind.
-/
import AdcCapture.Proofs.PlatformCalls
import AdcCapture.Proofs.WatermarkChange
import AdcCapture.Script.Fifo

namespace AdcCapture

open PlatformCall (setUp wayBack)

namespace Fifo

/-! ## Calls that leave the binding alone -/

/-- A descriptor stays shaped and bound as it is, and its board changes as the rules allow. -/
def steady (R : Board.Rules) : Contract Fifo where
  inv := Shaped
  allows f g := g.binding = f.binding ∧ R.allows f.board g.board
  refl f := ⟨rfl, R.refl f.board⟩
  trans h h' := ⟨h'.1.trans h.1, R.trans h.2 h'.2⟩

section Steady

variable {R : Board.Rules} {ε α : Type}

theorem onBoard_steady {a : Action Board ε α} (ha : a.Obeys R.contract) :
    (onBoard a).Obeys (steady R) :=
  .within ha (fun _ _ => trivial) fun _ _ hf _ hallowed => ⟨hf, rfl, hallowed⟩

theorem finalise_steady : (Action.update finalise : Action Fifo ε Unit).Obeys (steady R) :=
  .update fun f hf => ⟨hf, rfl, R.refl f.board⟩

variable (h : R.Free)
include h

theorem disable_steady : disable.Obeys (steady R) := onBoard_steady (h.setField _ _)

theorem arm_steady : arm.Obeys (steady R) := arm_admitted onBoard_steady (h _ rfl)

theorem unsetWatermark_steady : unsetWatermark.Obeys (steady R) :=
  unsetWatermark_admitted onBoard_steady
    (.update fun f _ => ⟨fun _ hb => (nomatch hb), rfl, R.refl f.board⟩) (h _ rfl)

theorem setWatermark_steady (w : Nat) : (setWatermark w).Obeys (steady R) := by
  intro f hf
  obtain ⟨hsure, hshaped, -, hallowed⟩ :=
    setWatermark_obeys w ⟨h _ rfl, h.wide _, h _ rfl⟩ f hf
  refine ⟨hsure, hshaped, ?_, hallowed⟩
  have hends := setWatermark_ends w f
  rcases hrun : setWatermark w f with ⟨o, g⟩
  rw [hrun] at hends
  cases hends <;> rfl

theorem readSamples_steady : readSamples.Obeys (steady R) := by
  intro f hf
  obtain ⟨hsure, hshaped, -⟩ := readSamples_keeps hf
  refine ⟨hsure, hshaped, ?_⟩
  cases hb : f.buffers with
  | none =>
    unfold readSamples
    rw [Action.state_bind, hb]
    exact (steady R).refl f
  | some b =>
    have hread := (Action.Obeys.mapError Failure.bus (R.readData b.rawSize (h _ rfl)) f.board
      trivial).allowed
    change R.allows f.board (Converter.readData b.rawSize f.board).2 at hread
    rw [readSamples_eq hb (hf b hb).rawSize_eq]
    rcases hr : Converter.readData b.rawSize f.board with ⟨o, c⟩
    rw [hr] at hread
    cases o <;> exact ⟨rfl, hread⟩

end Steady

/-! ## Binding and unbinding -/

/-- How binding the interrupt can end. -/
inductive RegisterEnds (f : Fifo) : Outcome Cause Unit × Fifo → Prop where
  /-- The descriptor is not live or is bound, or there is no such pin. -/
  | refused : RegisterEnds f (.error .invalidArgument, f)
  /-- A call of the platform failed, and the way back was gone. -/
  | unready {done rest : List PlatformCall} {c : PlatformCall} {back : List (PlatformCall × Bool)}
      {e : Cause} {b : Board} (hfree : f.binding = none) (hup : setUp = done ++ c :: rest)
      (hback : back.map Prod.fst = wayBack done)
      (h : b.platformCalls = f.board.platformCalls ++ (done.map (·, true) ++ (c, false) :: back)) :
      RegisterEnds f (.error e, { f with board := b })
  /-- The pin could not be routed, and the platform was taken down again. -/
  | unrouted {back : List (PlatformCall × Bool)} {e : Cause} {b : Board} (hfree : f.binding = none)
      (hback : back.map Prod.fst = wayBack setUp)
      (h : b.platformCalls = f.board.platformCalls ++ setUp.map (·, true) ++ back) :
      RegisterEnds f (.error e, { f with board := b })
  | bound {x : Binding} {b : Board} (hfree : f.binding = none)
      (h : b.platformCalls = f.board.platformCalls ++ setUp.map (·, true)) :
      RegisterEnds f (.ok (), { f with board := b, binding := some x })

theorem routePin_aloof (p : Pin) : (routePin p).Obeys Board.Rules.aloof.contract :=
  .bind (Board.Rules.free_aloof.setField _ _) fun _ => Board.Rules.free_aloof.setField _ _

theorem registerIrq_ends (i : Nat) (f : Fifo) : RegisterEnds f (registerIrq i f) := by
  unfold registerIrq
  rw [Action.state_bind]
  split
  · exact .refused
  · rename_i hguard
    have hfree : f.binding = none := by
      cases hb : f.binding with
      | none => rfl
      | some x => simp [hb] at hguard
    cases Pin.ofIndex? i with
    | none => exact .refused
    | some pin =>
      dsimp only
      have hup := setUpPlatform_ends f.board.irq f.board
      rcases hrun : setUpPlatform f.board.irq f.board with ⟨o, b⟩
      have hon := onBoard_eq hrun
      rw [hrun] at hup
      cases hup with
      | refused hup hback h =>
        rw [Action.bind_error _ hon]
        exact .unready hfree hup hback h
      | up h =>
        rw [Action.bind_ok _ hon]
        obtain ⟨hsure, -, hroute⟩ := routePin_aloof pin b trivial
        rcases hr : routePin pin b with ⟨o, c⟩
        rw [hr] at hsure hroute
        change c.platformCalls = b.platformCalls at hroute
        cases o with
        | fault x => cases hsure
        | ok _ =>
          have hon := onBoard_eq (f := { f with board := b }) (Action.recover_ok _ hr fun e => do
            teardown f.board.irq true
            (.fail e : Call Board Unit))
          rw [Action.bind_ok _ hon]
          refine .bound hfree ?_
          exact (Board.platformCalls_noted _ c).trans (hroute.trans h)
        | error e =>
          obtain ⟨d, back, hdown, hd, hback, -⟩ :=
            teardown_goesThrough (ε := Cause) f.board.irq true c
          have hfail := (Action.recover_error _ hr fun e => do
            teardown f.board.irq true
            (.fail e : Call Board Unit)).trans (Action.bind_ok _ hdown _)
          have hon := onBoard_eq (f := { f with board := b }) hfail
          rw [Action.bind_error _ hon]
          refine .unrouted hfree hback ?_
          rw [hd, hroute, h]

/-- Unbinding sets the pin back and takes the platform down, and ends as setting the pin back
did. -/
theorem unregisterIrq_eq {f : Fifo} {x : Binding} (hbound : f.binding = some x) :
    unregisterIrq f = ((Converter.setPinFunction x.pin .serialOut f.board).1, { f with
      board := (teardown (ε := Cause) x.irq true
        (Converter.setPinFunction x.pin .serialOut f.board).2).2
      binding := none }) := by
  have hsure : (Converter.setPinFunction x.pin .serialOut f.board).1.fault? = none :=
    (Board.Rules.free_aloof.setField x.pin.functionField PinFunction.serialOut.code f.board
      trivial).sure
  obtain ⟨b, back, hdown, -⟩ := teardown_goesThrough (ε := Cause) x.irq true
    (Converter.setPinFunction x.pin .serialOut f.board).2
  unfold unregisterIrq
  rw [Action.state_bind, hbound]
  dsimp only
  rw [Action.update_bind]
  rcases hset : Converter.setPinFunction x.pin .serialOut f.board with ⟨o, c⟩
  have hrestore : onBoard (Converter.setPinFunction x.pin .serialOut) { f with binding := none } =
      (o, { f with board := c, binding := none }) := onBoard_eq hset
  rw [hset] at hsure hdown
  have hplatform := onBoard_eq (f := { f with board := c, binding := none }) hdown
  rw [hdown]
  cases o with
  | ok v =>
    rw [Action.bind_ok _ (Action.attempt_ok _ hrestore), Action.bind_ok _ hplatform]
    rfl
  | error e =>
    rw [Action.bind_ok _ (Action.attempt_error _ hrestore), Action.bind_ok _ hplatform]
    rfl
  | fault y => cases hsure

/-- Unbinding takes the platform down, also if the pin cannot be restored. -/
theorem unregisterIrq_ends {f : Fifo} {x : Binding} (hbound : f.binding = some x) :
    ∃ o b back, unregisterIrq f = (o, { f with board := b, binding := none }) ∧ o.fault? = none ∧
      b.platformCalls = f.board.platformCalls ++ back ∧ back.map Prod.fst = wayBack setUp := by
  obtain ⟨hsure, -, hallowed⟩ :=
    Board.Rules.free_aloof.setField x.pin.functionField PinFunction.serialOut.code f.board trivial
  obtain ⟨b, back, hdown, hb, hback, -⟩ := teardown_goesThrough (ε := Cause) x.irq true
    (Converter.setPinFunction x.pin .serialOut f.board).2
  have heq := unregisterIrq_eq hbound
  rw [hdown] at heq
  exact ⟨_, b, back, heq, hsure, hb.trans (congrArg (· ++ back) hallowed), hback⟩

/-! ## Brackets -/

/-- The descriptor is shaped, and the platform calls since the first `l` are bracketed around its
binding. -/
structure Bracketed (l : List (PlatformCall × Bool)) (f : Fifo) : Prop where
  shaped : f.Shaped
  calls : ∃ calls, f.board.platformCalls = l ++ calls ∧ Brackets f.binding.isSome calls

namespace Bracketed

variable {l : List (PlatformCall × Bool)} {f g : Fifo} {ε α : Type}

theorem fresh (b : Board) : Bracketed b.platformCalls { board := b } where
  shaped _ hb := nomatch hb
  calls := ⟨[], (List.append_nil _).symm, .none⟩

theorem alike (h : Bracketed l f) (hg : g.Shaped) (hbinding : g.binding = f.binding)
    (hcalls : g.board.platformCalls = f.board.platformCalls) : Bracketed l g where
  shaped := hg
  calls := by
    obtain ⟨calls, hl, hbrackets⟩ := h.calls
    exact ⟨calls, hcalls.trans hl, hbinding ▸ hbrackets⟩

theorem steady (h : Bracketed l f) {a : Action Fifo ε α}
    (ha : a.Obeys (Fifo.steady Board.Rules.aloof)) : Bracketed l (a f).2 := by
  obtain ⟨-, hshaped, hbinding, hcalls⟩ := ha f h.shaped
  exact h.alike hshaped hbinding hcalls

theorem registerIrq (h : Bracketed l f) (i : Nat) : Bracketed l (Fifo.registerIrq i f).2 := by
  have hshaped := (Fifo.registerIrq_obeys (R := .lax) i
    ⟨fun _ => trivial, fun _ => trivial, fun _ => trivial⟩ f h.shaped).inv
  refine ⟨hshaped, ?_⟩
  obtain ⟨calls, hl, hbrackets⟩ := h.calls
  have hends := registerIrq_ends i f
  rcases hrun : Fifo.registerIrq i f with ⟨o, g⟩
  rw [hrun] at hends
  cases hends with
  | refused => exact ⟨calls, hl, hbrackets⟩
  | unready hfree hup hback hcalls =>
    rw [hfree] at hbrackets
    refine ⟨_, ?_, by simpa [hfree] using hbrackets.failed hup hback⟩
    rw [hcalls, hl, List.append_assoc]
  | unrouted hfree hback hcalls =>
    rw [hfree] at hbrackets
    refine ⟨_, ?_, by simpa [hfree] using hbrackets.bound.unbound hback⟩
    rw [hcalls, hl]
    simp only [List.append_assoc]
  | bound hfree hcalls =>
    rw [hfree] at hbrackets
    refine ⟨_, ?_, hbrackets.bound⟩
    rw [hcalls, hl, List.append_assoc]

theorem unregisterIrq (h : Bracketed l f) : Bracketed l (Fifo.unregisterIrq f).2 := by
  cases hb : f.binding with
  | none =>
    unfold Fifo.unregisterIrq
    rw [Action.state_bind, hb]
    exact h
  | some x =>
    obtain ⟨calls, hl, hbrackets⟩ := h.calls
    obtain ⟨o, c, back, hrun, -, hcalls, hback⟩ := unregisterIrq_ends hb
    rw [hrun]
    rw [hb] at hbrackets
    refine ⟨h.shaped, _, ?_, hbrackets.unbound hback⟩
    rw [hcalls, hl, List.append_assoc]

end Bracketed

end Fifo

/-! ## The states of a run -/

theorem Handling.lawful_fifoPart : Handling.fifoPart.Lawful where
  get_set _ _ := rfl
  set_set _ _ _ := rfl

namespace FifoStep

/-- How handling an interrupt can end, with a consumer that does this to the descriptor. -/
inductive HandleEnds (consumer : Fifo → Fifo) (f : Fifo) : Fifo → Prop where
  | dead (h : f.live = false) : HandleEnds consumer f f
  /-- The status could not be read. -/
  | unasked {e : Cause} {b : Board} (hask : Converter.fifoFull f.board = (.error e, b)) :
      HandleEnds consumer f { f with board := b }
  | spurious {b : Board} (hask : Converter.fifoFull f.board = (.ok false, b)) :
      HandleEnds consumer f { f with board := b.noted .spuriousInterrupt }
  | full {b : Board} (hlive : f.live = true)
      (hask : Converter.fifoFull f.board = (.ok true, b)) :
      HandleEnds consumer f (Fifo.disable (markEvent (.leave .consumer)
        (consumer (markEvent (.enter .consumer) { f with board := b })))).2

theorem consumerOf_apply (body : Fifo → List FifoReply × Fifo) (h : Handling) :
    consumerOf body h = (.ok (), {
      fifo := markEvent (.leave .consumer) (body (markEvent (.enter .consumer) h.fifo)).2
      replies := some (body (markEvent (.enter .consumer) h.fifo)).1 }) := rfl

theorem handle_ends (body : Fifo → List FifoReply × Fifo) (f : Fifo) :
    HandleEnds (fun g => (body g).2) f (handle body f).2 := by
  have hstate : (handle body f).2 = (Fifo.handleInterrupt Handling.fifoPart (consumerOf body)
      { fifo := f }).2.fifo := by
    unfold handle
    rcases Fifo.handleInterrupt Handling.fifoPart (consumerOf body) { fifo := f } with ⟨o, h⟩
    cases o <;> rfl
  rw [hstate]
  cases hlive : f.live with
  | false =>
    rw [Fifo.handleInterrupt_dead hlive]
    exact .dead hlive
  | true =>
    have hpart : (Handling.fifoPart.get { fifo := f }).live = true := hlive
    rcases Converter.fifoFull_ends f.board with ⟨full, b, hask⟩ | ⟨e, b, hask⟩
    · cases full with
      | false =>
        rw [Fifo.handleInterrupt_spurious hpart Handling.lawful_fifoPart hask]
        exact .spurious hask
      | true =>
        rw [Fifo.handleInterrupt_consumed hpart hask (consumerOf_apply body _) rfl]
        exact .full hlive hask
    · rw [Fifo.handleInterrupt_unasked hpart hask]
      exact .unasked hask

/-- A state that the descriptor `f` has between two operations of some run, or between two of those
that the consumer of an interrupt makes. -/
inductive Reaches (f : Fifo) : Fifo → Prop where
  | here : Reaches f f
  | step {g : Fifo} (h : Reaches f g) (s : FifoStep) : Reaches f (s.run g).2
  /-- An interrupt was found to be real, and its consumer begins. -/
  | entered {g : Fifo} {b : Board} (h : Reaches f g) (hlive : g.live = true)
      (hask : Converter.fifoFull g.board = (.ok true, b)) :
      Reaches f (markEvent (.enter .consumer) { g with board := b })

section Bracketed

open Fifo (Bracketed)

variable {l : List (PlatformCall × Bool)} {f g : Fifo}

theorem markEvent_bracketed (h : Bracketed l f) (p : NestingPoint) :
    Bracketed l (markEvent (.enter p) f) ∧ Bracketed l (markEvent (.leave p) f) :=
  ⟨h.alike h.shaped rfl (Board.platformCalls_cons rfl),
    h.alike h.shaped rfl (Board.platformCalls_cons rfl)⟩

theorem asked_bracketed (h : Bracketed l f) {o : Outcome Cause Bool} {b : Board}
    (hask : Converter.fifoFull f.board = (o, b)) : Bracketed l { f with board := b } := by
  have hcalls := (Board.Rules.aloof.fifoFull f.board trivial).allowed
  rw [hask] at hcalls
  exact h.alike h.shaped rfl hcalls

theorem handle_bracketed (h : Bracketed l f) {body : Fifo → List FifoReply × Fifo}
    (hbody : ∀ g, Bracketed l g → Bracketed l (body g).2) : Bracketed l (handle body f).2 := by
  have hends := handle_ends body f
  generalize (handle body f).2 = g at hends
  cases hends with
  | dead => exact h
  | unasked hask => exact asked_bracketed h hask
  | spurious hask =>
    exact (asked_bracketed h hask).alike h.shaped rfl (Board.platformCalls_noted _ _)
  | full _ hask =>
    have hbegun := (markEvent_bracketed (asked_bracketed h hask) .consumer).1
    have hended := (markEvent_bracketed (hbody _ hbegun) .consumer).2
    exact hended.steady (Fifo.disable_steady Board.Rules.free_aloof)

theorem board_platformCalls (s : BoardStep) (b : Board) :
    (s.run b).2.platformCalls = b.platformCalls := by cases s <;> rfl

mutual

/-- Every step of a descriptor leaves its platform calls bracketed. -/
theorem run_bracketed : ∀ (s : FifoStep) {f : Fifo}, Bracketed l f → Bracketed l (s.run f).2
  | board s, f, h => h.alike h.shaped rfl (board_platformCalls s f.board)
  | converter s, f, h =>
    h.alike h.shaped rfl (s.run_obeys Board.Rules.free_aloof f.board trivial).allowed
  | setWatermark w, _, h => (h.steady (Fifo.setWatermark_steady Board.Rules.free_aloof w) :)
  | unsetWatermark, _, h => (h.steady (Fifo.unsetWatermark_steady Board.Rules.free_aloof) :)
  | arm, _, h => (h.steady (Fifo.arm_steady Board.Rules.free_aloof) :)
  | disable, _, h => (h.steady (Fifo.disable_steady Board.Rules.free_aloof) :)
  | readSamples, _, h => (h.steady (Fifo.readSamples_steady Board.Rules.free_aloof) :)
  | registerIrq i, _, h => h.registerIrq i
  | unregisterIrq, _, h => h.unregisterIrq
  | finalise, _, h => h.alike h.shaped rfl rfl
  | samples _ _, _, h => h
  | interrupt consumer, _, h => handle_bracketed h fun _ hg => runAll_bracketed consumer hg

theorem runAll_bracketed :
    ∀ (steps : List FifoStep) {f : Fifo}, Bracketed l f → Bracketed l (runAll steps f).2
  | [], _, h => h
  | s :: rest, _, h => runAll_bracketed rest (run_bracketed s h)

end

theorem Reaches.bracketed (h : Reaches f g) (hf : Bracketed l f) : Bracketed l g := by
  induction h with
  | here => exact hf
  | step _ s ih => exact run_bracketed s ih
  | entered _ _ hask ih => exact (markEvent_bracketed (asked_bracketed ih hask) .consumer).1

end Bracketed

end FifoStep

end AdcCapture
