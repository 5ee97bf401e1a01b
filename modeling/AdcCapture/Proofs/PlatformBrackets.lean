/-
  The platform over whole runs, of a descriptor and of a driver (`platform_bracketed`). A driver
  binds its interrupt once, when it starts, and unbinds it once, at its end. Between the two every
  critical section leaves the binding alone and does to the board what given rules allow, as long
  as they permit everything but calls of the platform (`Operation.run_steady`).
-/
import AdcCapture.Proofs.DescriptorRuns

namespace AdcCapture

open PlatformCall (setUp wayBack)

variable {δ : Type}

namespace Board.Rules

variable {R : Board.Rules}

theorem noted_allowed (m : Message) (b : Board) : R.allows b (b.noted m) :=
  (R.log (ε := Empty) m b trivial).allowed

theorem Free.switchedOff (h : R.Free) (report : Cause → Message) (b : Board) :
    R.allows b (b.switchedOff report) := by
  have hmode := (h.setField .fifoMode FifoMode.disabled.code b trivial).allowed
  change R.allows b (Converter.setFifoMode .disabled b).2 at hmode
  unfold Board.switchedOff
  rcases hm : Converter.setFifoMode .disabled b with ⟨o, c⟩
  rw [hm] at hmode
  cases o with
  | ok _ => exact hmode
  | error e => exact R.trans hmode (noted_allowed _ c)
  | fault x => exact hmode

end Board.Rules

namespace Board

/-- The board after a call, and after a report of its failure. -/
def reported (report : Cause → Message) : Outcome Cause Unit × Board → Board
  | (.error e, b) => b.noted (report e)
  | (_, b) => b

theorem switchedOff_eq (report : Cause → Message) (b : Board) :
    b.switchedOff report = reported report (Converter.setFifoMode .disabled b) := by
  unfold switchedOff
  rcases Converter.setFifoMode .disabled b with ⟨o, c⟩
  cases o <;> rfl

/-- The board when an interrupt has been unbound, and a failure reported. -/
def unbound (x : Binding) (b : Board) : Board :=
  let restored := Converter.setPinFunction x.pin .serialOut b
  reported .unbindFailed
    (restored.1, ((Fifo.teardown x.irq true : Call Board Unit) restored.2).2)

theorem platformCalls_unbound (x : Binding) (b : Board) :
    ∃ back, (b.unbound x).platformCalls = b.platformCalls ++ back ∧
      back.map Prod.fst = wayBack setUp := by
  have hpin := (Rules.free_aloof.setField x.pin.functionField PinFunction.serialOut.code b
    trivial).allowed
  obtain ⟨c, back, hdown, hc, hback, -⟩ := Fifo.teardown_goesThrough (ε := Cause) x.irq true
    (Converter.setPinFunction x.pin .serialOut b).2
  have hkept : ∀ o, (reported .unbindFailed (o, c)).platformCalls = c.platformCalls := by
    intro o
    cases o with
    | error e => exact platformCalls_noted _ c
    | _ => rfl
  refine ⟨back, ?_, hback⟩
  unfold unbound
  dsimp only
  rw [hdown, hkept, hc]
  exact congrArg (· ++ back) hpin

end Board

/-! ## Critical sections -/

namespace Driver

/-- A driver stays sound, a pending capture stays pending, the interrupt stays bound as it is, and
the board changes as the rules allow. -/
def steady (R : Board.Rules) : Contract Driver where
  inv := Sound
  allows d e := (d.capture = .armed → e.capture = .armed) ∧ (Fifo.steady R).allows d.fifo e.fifo
  refl d := ⟨fun h => h, (Fifo.steady R).refl d.fifo⟩
  trans h h' := ⟨fun hd => h'.1 (h.1 hd), (Fifo.steady R).trans h.2 h'.2⟩

variable {R : Board.Rules} {ε α : Type} {d : Driver}

theorem onBoard_steady {a : Action Board ε α} (ha : a.Obeys R.contract) :
    (onBoard a).Obeys (steady R) :=
  .within ha (fun _ _ => trivial) fun _ b hd _ hallowed =>
    ⟨hd.withBoard b, fun h => h, rfl, hallowed⟩

theorem setCaptureTimeout_steady (polls : UInt32) :
    (Action.update (setCaptureTimeout polls) : Action Driver ε Unit).Obeys (steady R) := by
  intro d hd
  obtain ⟨hsure, hsound, hstays⟩ := setCaptureTimeout_obeys (ε := ε) polls d hd
  exact ⟨hsure, hsound, hstays, (Fifo.steady R).refl d.fifo⟩

variable (h : R.Free)
include h

theorem setWatermark_steady (w : Nat) : (setWatermark w).Obeys (steady R) := by
  intro d hd
  obtain ⟨hsure, hsound, hstays⟩ := setWatermark_obeys w d hd
  refine ⟨hsure, hsound, hstays, ?_⟩
  cases hc : d.capture with
  | armed =>
    rw [setWatermark_armed hc]
    exact (Fifo.steady R).refl d.fifo
  | idle =>
    rw [setWatermark_idle hc]
    exact (Fifo.setWatermark_steady h w d.fifo hd.shaped).allowed

theorem interrupted_steady (hd : d.Sound) :
    (Fifo.steady R).allows d.fifo d.interrupted.fifo := by
  have hask := (R.fifoFull d.fifo.board trivial).allowed
  change R.allows d.fifo.board (Converter.fifoFull d.fifo.board).2 at hask
  unfold interrupted
  rcases hf : Converter.fifoFull d.fifo.board with ⟨o, b⟩
  rw [hf] at hask
  have hasked : (Fifo.steady R).allows d.fifo (d.withBoard b).fifo := ⟨rfl, hask⟩
  have hnoted : ∀ m, (Fifo.steady R).allows d.fifo (d.withBoard (b.noted m)).fifo :=
    fun m => ⟨rfl, R.trans hask (Board.Rules.noted_allowed m b)⟩
  cases o with
  | error e => exact hnoted _
  | fault x => exact hasked
  | ok full =>
    cases full with
    | false => exact hnoted _
    | true =>
      have hconsumed : (Fifo.steady R).allows d.fifo (d.withBoard b).consumed.fifo := by
        unfold consumed
        split
        · have hread := (Fifo.readSamples_steady h (d.withBoard b).fifo
            (hd.withBoard b).shaped).allowed
          exact (Fifo.steady R).trans hasked hread
        · exact hnoted _
      exact (Fifo.steady R).trans hconsumed ⟨rfl, h.switchedOff _ _⟩

theorem onInterrupt_steady : onInterrupt.Obeys (steady R) := by
  intro d hd
  obtain ⟨hsure, hsound, hstays⟩ := onInterrupt_obeys d hd
  refine ⟨hsure, hsound, hstays, ?_⟩
  rw [onInterrupt_eq hd]
  exact interrupted_steady h hd

theorem beginCapture_steady (d : Driver) :
    (Fifo.steady R).allows d.fifo (beginCapture d).2.fifo := by
  cases hc : d.capture with
  | armed =>
    rw [beginCapture_armed hc]
    exact (Fifo.steady R).refl d.fifo
  | idle =>
    cases hb : d.fifo.buffers with
    | none =>
      rw [beginCapture_unsized hc hb]
      exact (Fifo.steady R).refl d.fifo
    | some x =>
      have hsome : d.fifo.buffers.isSome = true := by rw [hb]; rfl
      have hmode :=
        (h.setField .fifoMode FifoMode.immediateTrigger.code d.fifo.board trivial).allowed
      change R.allows d.fifo.board (Converter.setFifoMode .immediateTrigger d.fifo.board).2 at hmode
      rcases Converter.setFifoMode_ends .immediateTrigger d.fifo.board with ⟨b, hm⟩ | ⟨e, b, hm⟩
      · rw [beginCapture_begun hc hsome hm]
        rw [hm] at hmode
        exact ⟨rfl, hmode⟩
      · rw [beginCapture_refused hc hsome hm]
        rw [hm] at hmode
        exact ⟨rfl, hmode⟩

omit h in
theorem close_steady (d : Driver) (r : Except Cause Unit) :
    (Fifo.steady R).allows d.fifo (d.close r).2.fifo := by
  cases r with
  | ok _ => exact ⟨rfl, Board.Rules.noted_allowed _ _⟩
  | error e => exact (Fifo.steady R).refl d.fifo

theorem endCapture_steady (hd : d.Sound) (harmed : d.capture = .armed) (polls : UInt32)
    (waited : Except TimedOut (Except Cause Unit)) :
    (Fifo.steady R).allows d.fifo (endCapture polls waited d).2.fifo := by
  cases waited with
  | ok r =>
    rw [endCapture_result]
    exact close_steady d r
  | error e =>
    cases hdone : d.completion.done with
    | false =>
      rw [endCapture_late (lateResult_open hdone polls)]
      have habandoned : (Fifo.steady R).allows d.fifo (d.abandoned polls).fifo :=
        ⟨rfl, R.trans (Board.Rules.noted_allowed _ _) (h.switchedOff _ _)⟩
      exact (Fifo.steady R).trans habandoned (close_steady _ _)
    | true =>
      obtain ⟨r, hr⟩ := Option.isSome_iff_exists.mp (hd.stored hdone)
      rw [endCapture_late (lateResult_done (hd.signed harmed) hdone hr polls)]
      exact close_steady d r

end Driver

/-! ## Runs of a driver -/

namespace Scene

/-- The scene is sound, and what its journal shows comes from the driver `d` as the rules allow. -/
structure Steady (R : Board.Rules) (d : Driver) (s : Scene δ) : Prop where
  sound : s.Sound
  here : (Fifo.steady R).allows d.fifo s.driver.fifo
  shown : ∀ e ∈ s.journal, ∀ x ∈ e.drivers, (Fifo.steady R).allows d.fifo x.fifo

/-- A scene stays steady, and a pending capture stays pending. -/
def steady (R : Board.Rules) (d : Driver) : Contract (Scene δ) where
  inv := Steady R d
  allows := contract.allows
  refl := contract.refl
  trans := contract.trans

variable {R : Board.Rules} {d : Driver} {s t : Scene δ}

theorem Steady.pass (h : Steady R d s) {x : Driver} (hx : x.Sound)
    (hallowed : (Fifo.steady R).allows s.driver.fifo x.fifo) : Steady R d (s.pass x) := by
  have hfirst := (Fifo.steady R).trans h.here hallowed
  exact {
    sound := h.sound.pass hx
    here := hfirst
    shown := List.forall_mem_cons.mpr ⟨List.forall_mem_singleton.mpr hfirst, h.shown⟩ }

theorem Steady.note (hs : Steady R d s) (ht : Steady R d t) (op : Operation δ)
    {o : Outcome Cause Unit} (ho : o.fault? = none) :
    Steady R d (Scene.note op s.driver (o, t)) where
  sound := hs.sound.note ht.sound op ho
  here := ht.here
  shown := List.forall_mem_cons.mpr
    ⟨List.forall_mem_cons.mpr ⟨hs.here, List.forall_mem_singleton.mpr ht.here⟩, ht.shown⟩

theorem within_driver_steady {ε α : Type} {a : Action Driver ε α} (ha : a.Obeys (Driver.steady R)) :
    (Action.within driverPart a : Action (Scene δ) ε α).Obeys (steady R d) :=
  .within ha (fun _ hs => hs.sound.driver) fun _ _ hs hx hallowed =>
    ⟨hs.pass hx hallowed.2, hallowed.1⟩

theorem guards_steady : Guards (steady R d : Contract (Scene δ)) where
  sound hs := hs.sound.driver
  pending h := h
  waiting := by
    intro s hs
    have hlogged := hs.pass (hs.sound.driver.withBoard (s.driver.fifo.board.noted .captureArmed))
      ⟨rfl, Board.Rules.noted_allowed .captureArmed s.driver.fifo.board⟩
    exact hlogged.pass hlogged.sound.driver ((Fifo.steady R).refl _)

theorem captureOn_steady (h : R.Free) {interrupts : Interrupts (Scene δ)}
    (harm : (Action.update interrupts.afterArm : Call (Scene δ) Unit).Obeys (steady R d))
    (hwait : (Action.update interrupts.afterWait : Call (Scene δ) Unit).Obeys (steady R d)) :
    (Driver.captureOn driverPart interrupts).Obeys (steady R d) := by
  intro s hs
  have hbegun := Driver.beginCapture_steady h s.driver
  rcases hs.sound.driver.beginCapture with ⟨e, x, hbegin, hx, hcapture⟩ | ⟨b, hbegin, hx, hidle⟩
  · rw [hbegin] at hbegun
    rw [captureOn_error interrupts hbegin]
    exact ⟨rfl, hs.pass hx hbegun, fun hc => hcapture.trans hc⟩
  · rw [hbegin] at hbegun
    obtain ⟨t, u, -, -, hu, hpending, hrun⟩ :=
      guards_steady.captureOn harm hwait hbegin (hs.pass hx hbegun)
    obtain ⟨hsure, hend⟩ := hu.sound.driver.endCapture hpending t.driver.captureTimeout
      t.driver.completion.waited
    rw [hrun]
    exact ⟨hsure, hu.pass hend (Driver.endCapture_steady h hu.sound.driver hpending _ _),
      fun hc => absurd (hidle.symm.trans hc) (fun h => nomatch h)⟩

theorem carries_steady [Sink δ] (h : R.Free)
    (hdisturb : ∀ x : Disturbance, (Action.update x.change : Call Board Unit).Obeys R.contract) :
    Carries R (Driver.steady R) (steady R d : Contract (Scene δ)) where
  free := h
  disturb := hdisturb
  board := Driver.onBoard_steady
  watermark := Driver.setWatermark_steady h
  driver := within_driver_steady
  sink _ _ _ hs := ⟨⟨⟨hs.sound.driver, hs.sound.journal⟩, hs.here, hs.shown⟩, fun h => h⟩
  interrupt := Driver.onInterrupt_steady h
  timeout := Driver.setCaptureTimeout_steady
  capture := captureOn_steady h
  note op _ _ _ _ hs ht hallowed ho := ⟨hs.note ht op ho, hallowed⟩

end Scene

/-- From its start on, a driver stays bound as it is and its board changes as the rules allow. -/
theorem Operation.run_steady [Sink δ] {R : Board.Rules} (h : R.Free)
    (hdisturb : ∀ x : Disturbance, (Action.update x.change : Call Board Unit).Obeys R.contract)
    {d : Driver} (hd : d.Sound) (sinks : Nat → δ) (ops : List (Operation δ)) :
    ∀ e ∈ (runAll ops (Scene.start d sinks)).journal, ∀ x ∈ e.drivers,
      (Fifo.steady R).allows d.fifo x.fifo := by
  have hfirst := (Fifo.steady R).refl d.fifo
  have hstart : Scene.Steady R d (Scene.start d sinks) := {
    sound := ⟨hd, List.forall_mem_singleton.mpr hd⟩
    here := hfirst
    shown := List.forall_mem_singleton.mpr (List.forall_mem_singleton.mpr hfirst) }
  exact (runAll_carried (Scene.carries_steady h hdisturb) ops _ hstart).inv.shown

/-! ## The start and the end of a driver -/

/-- A descriptor without a binding, whose platform calls since the first `l` are bracketed. -/
structure Fifo.Unbound (l : List (PlatformCall × Bool)) (f : Fifo) : Prop
    extends Fifo.Bracketed l f where
  free : f.binding = none

namespace Fifo.Unbound

variable {l : List (PlatformCall × Bool)} {f : Fifo} {ε α : Type}

theorem brackets (h : Unbound l f) :
    ∃ calls, f.board.platformCalls = l ++ calls ∧ Brackets false calls := by
  have hcalls := h.calls
  rw [h.free] at hcalls
  exact hcalls

theorem steady (h : Unbound l f) {a : Action Fifo ε α}
    (ha : a.Obeys (Fifo.steady Board.Rules.aloof)) :
    (∃ v g, a f = (.ok v, g) ∧ Unbound l g) ∨ ∃ e g, a f = (.error e, g) ∧ Unbound l g := by
  obtain ⟨hsure, -, hbinding, -⟩ := ha f h.shaped
  have hafter : Unbound l (a f).2 := ⟨h.toBracketed.steady ha, hbinding.trans h.free⟩
  rcases Action.ends_of_sure hsure with ⟨v, g, hrun⟩ | ⟨e, g, hrun⟩
  · rw [hrun] at hafter
    exact .inl ⟨v, g, hrun, hafter⟩
  · rw [hrun] at hafter
    exact .inr ⟨e, g, hrun, hafter⟩

theorem registerIrq (h : Unbound l f) (i : Nat) :
    (∃ g, Fifo.registerIrq i f = (.ok (), g) ∧ g.binding.isSome = true ∧ Bracketed l g) ∨
      ∃ e g, Fifo.registerIrq i f = (.error e, g) ∧ Unbound l g := by
  have hafter := h.toBracketed.registerIrq i
  have hends := registerIrq_ends i f
  rcases hrun : Fifo.registerIrq i f with ⟨o, g⟩
  rw [hrun] at hafter hends
  cases hends with
  | refused => exact .inr ⟨_, _, rfl, hafter, h.free⟩
  | unready => exact .inr ⟨_, _, rfl, hafter, h.free⟩
  | unrouted => exact .inr ⟨_, _, rfl, hafter, h.free⟩
  | bound => exact .inl ⟨_, rfl, rfl, hafter⟩

end Fifo.Unbound

namespace Driver

open Board.Rules (aloof free_aloof)

open Fifo (Bracketed Unbound)

/-- A start that fails leaves nothing bound, and one that succeeds leaves the interrupt bound. -/
theorem bringUp_ends (c : Config) (b : Board) :
    (∃ g, bringUp c { board := b } = (.ok (), g) ∧ g.binding.isSome = true ∧
        Bracketed b.platformCalls g) ∨
      ∃ e g, bringUp c { board := b } = (.error e, g) ∧ Unbound b.platformCalls g := by
  have hfresh : Unbound b.platformCalls { board := b } := ⟨.fresh b, rfl⟩
  have hcheck : (Fifo.onBoard Converter.init).Obeys (Fifo.steady aloof) :=
    Fifo.onBoard_steady (aloof.init rfl)
  have hresize : ((Fifo.setWatermark c.watermark).recover fun e => do
      Action.update Fifo.finalise
      (.fail e : Call Fifo Unit)).Obeys (Fifo.steady aloof) :=
    .recover (Fifo.setWatermark_steady free_aloof _) fun e =>
      .bind Fifo.finalise_steady fun _ => .fail e
  unfold bringUp
  rcases hfresh.steady hcheck with ⟨_, f₁, h₁, hf₁⟩ | ⟨e, f₁, h₁, hf₁⟩
  · rw [Action.bind_ok _ h₁]
    rcases hf₁.steady hresize with ⟨_, f₂, h₂, hf₂⟩ | ⟨e, f₂, h₂, hf₂⟩
    · rw [Action.bind_ok _ h₂]
      rcases hf₂.registerIrq c.fifoFullPin with ⟨f₃, h₃, hbound, hf₃⟩ | ⟨e, f₃, h₃, hf₃⟩
      · rw [Action.bind_ok _ (Action.recover_ok _ h₃ _)]
        exact .inl ⟨_, rfl, hbound, hf₃.alike hf₃.shaped rfl (Board.platformCalls_noted _ _)⟩
      · have hdrop : (Action.attempt Fifo.unsetWatermark : Call Fifo _).Obeys (Fifo.steady aloof) :=
          .attempt (Fifo.unsetWatermark_steady free_aloof)
        obtain ⟨r, -, hattempt⟩ := Action.attempt_of_sure Cause
          (Fifo.unsetWatermark_steady free_aloof f₃ hf₃.shaped).sure
        have hf₄ := hf₃.toBracketed.steady hdrop
        have hfree := (hdrop f₃ hf₃.shaped).allowed.1.trans hf₃.free
        rw [hattempt] at hf₄ hfree
        have hback : (do
            let _ ← Action.attempt Fifo.unsetWatermark
            Action.update Fifo.finalise
            Action.fail e : Call Fifo Unit) f₃ =
              (.error e, (Fifo.unsetWatermark f₃).2.finalise) := Action.bind_ok _ hattempt _
        rw [Action.bind_error _ ((Action.recover_error _ h₃ _).trans hback)]
        exact .inr ⟨_, _, rfl, hf₄.alike hf₄.shaped rfl rfl, hfree⟩
    · rw [Action.bind_error _ h₂]
      exact .inr ⟨e, f₂, rfl, hf₂⟩
  · rw [Action.bind_error _ h₁]
    exact .inr ⟨e, f₁, rfl, hf₁⟩

/-- A call whose failure is reported in the log. -/
theorem reported {a : Call Driver Unit} {d e : Driver} {o : Outcome Cause Unit}
    (hrun : a d = (o, e)) (hsure : o.fault? = none) (report : Cause → Message) :
    (a.recover fun e => onBoard (Board.log (report e)) : Action Driver Empty Unit) d =
      (.ok (), e.withBoard (Board.reported report (o, e.fifo.board))) := by
  cases o with
  | ok v => exact Action.recover_ok _ hrun _
  | error x => exact Action.recover_error _ hrun _
  | fault x => cases hsure

/-- The end of a driver, whatever fails: its interrupt is unbound, its FIFO is turned off, and the
board is handed back. -/
theorem fini_eq {d : Driver} {x : Binding} (hx : d.fifo.binding = some x) :
    d.fini = (.ok (), ((d.fifo.board.unbound x).switchedOff .unsetFailed).noted .removed) := by
  have hpin := (free_aloof.setField x.pin.functionField PinFunction.serialOut.code d.fifo.board
    trivial).sure
  have hmode := (free_aloof.setField .fifoMode FifoMode.disabled.code (d.fifo.board.unbound x)
    trivial).sure
  let e : Driver :=
    { d with fifo := { d.fifo with board := d.fifo.board.unbound x, binding := none } }
  have hunbind : ((onFifo Fifo.unregisterIrq).recover fun e =>
      onBoard (Board.log (.unbindFailed e)) : Action Driver Empty Unit) d = (.ok (), e) :=
    reported (onFifo_eq (Fifo.unregisterIrq_eq hx)) hpin .unbindFailed
  have hunset := reported (onFifo_eq (d := e) (Fifo.unsetWatermark_eq e.fifo)) hmode .unsetFailed
  rw [Board.switchedOff_eq]
  unfold fini takeDown
  rw [Action.bind_ok _ hunbind, Action.bind_ok _ hunset]
  rfl

/-- The end of a driver takes its binding down, whatever fails. -/
theorem fini_ends {d : Driver} (hbound : d.fifo.binding.isSome = true) :
    ∃ b back, d.fini = (.ok (), b) ∧ b.platformCalls = d.fifo.board.platformCalls ++ back ∧
      back.map Prod.fst = wayBack setUp := by
  obtain ⟨x, hx⟩ := Option.isSome_iff_exists.mp hbound
  obtain ⟨back, hcalls, hback⟩ := d.fifo.board.platformCalls_unbound x
  refine ⟨_, back, fini_eq hx, ?_, hback⟩
  exact (Board.platformCalls_noted _ _).trans ((free_aloof.switchedOff _ _).trans hcalls)

end Driver

/-! ## Whole runs -/

theorem Board.Rules.aloof_disturbed (x : Disturbance) :
    (Action.update x.change : Call Board Unit).Obeys aloof.contract := by
  refine .update fun b _ => ⟨trivial, ?_⟩
  change (x.change b).platformCalls = b.platformCalls
  unfold platformCalls
  rw [x.record_eq]

/-- Whatever fails, in every state that a fresh descriptor reaches it holds each resource of the
platform once if its interrupt is bound, and none otherwise, and every way back gave back what had
been taken, in the opposite order. A driver whose start fails holds nothing; one that has started
holds each resource once and calls the platform no more, whatever is done to it, until its end
gives everything back. -/
theorem platform_bracketed [Sink δ] (b : Board) :
    (∀ f, FifoStep.Reaches { board := b } f →
      ∃ calls, f.board.platformCalls = b.platformCalls ++ calls ∧
        Brackets f.binding.isSome calls ∧
        ∀ r : Resource, r.held calls = if f.binding.isSome then 1 else 0) ∧
    ∀ c : Config,
      (∃ e b' calls, Driver.init c b = (.error e, b') ∧
        b'.platformCalls = b.platformCalls ++ calls ∧ Brackets false calls ∧
        ∀ r : Resource, r.held calls = 0) ∨
      ∃ d calls, Driver.init c b = (.ok d, d.fifo.board) ∧
        d.fifo.board.platformCalls = b.platformCalls ++ calls ∧ Brackets true calls ∧
        (∀ r : Resource, r.held calls = 1) ∧
        ∀ (sinks : Nat → δ) (ops : List (Operation δ)),
          ∀ e ∈ (Operation.runAll ops (Scene.start d sinks)).journal, ∀ x ∈ e.drivers,
            x.fifo.board.platformCalls = b.platformCalls ++ calls ∧
            ∃ b' back, x.fini = (.ok (), b') ∧
              b'.platformCalls = b.platformCalls ++ (calls ++ back) ∧
              back.map Prod.fst = [.irqDisable, .irqUnregister, .irqRemove, .gpioRelease] ∧
              Brackets false (calls ++ back) ∧ ∀ r : Resource, r.held (calls ++ back) = 0 := by
  constructor
  · intro f hf
    obtain ⟨calls, hcalls, hbrackets⟩ := (hf.bracketed (.fresh b)).calls
    exact ⟨calls, hcalls, hbrackets, hbrackets.held⟩
  · intro c
    rcases Driver.bringUp_ends c b with ⟨f, hup, hbound, hf⟩ | ⟨e, f, hup, hf⟩
    · right
      have hinit : Driver.init c b =
          (.ok { fifo := f, captureTimeout := c.captureTimeout }, f.board) := by
        unfold Driver.init
        rw [hup]
      have hsound := Driver.init_sound (congrArg Prod.fst hinit)
      obtain ⟨calls, hcalls, hbrackets⟩ := hf.calls
      rw [hbound] at hbrackets
      refine ⟨_, calls, hinit, hcalls, hbrackets, hbrackets.held, ?_⟩
      intro sinks ops e he x hx
      obtain ⟨hbinding, hsame⟩ := Operation.run_steady Board.Rules.free_aloof
        Board.Rules.aloof_disturbed hsound sinks ops e he x hx
      have hhere : x.fifo.board.platformCalls = b.platformCalls ++ calls := Eq.trans hsame hcalls
      have hstill : x.fifo.binding.isSome = true := (congrArg Option.isSome hbinding).trans hbound
      obtain ⟨b', back, hfini, hb', hback⟩ := Driver.fini_ends hstill
      have hwhole := hbrackets.unbound hback
      refine ⟨hhere, b', back, hfini, ?_, hback, hwhole, hwhole.held⟩
      rw [hb', hhere, List.append_assoc]
    · left
      have hinit : Driver.init c b = (.error e, f.board) := by
        unfold Driver.init
        rw [hup]
      obtain ⟨calls, hcalls, hbrackets⟩ := hf.brackets
      exact ⟨e, _, calls, hinit, hcalls, hbrackets, hbrackets.held⟩

/-- The last call of the way up is refused once, and the interrupt is bound at the second try. -/
theorem platform_bracketed_retried :
    let b : Board := { refuses := fun k _ => k = 5 }
    let f := ((FifoStep.registerIrq 1).run ((FifoStep.registerIrq 1).run { board := b }).2).2
    (∃ calls, f.board.platformCalls = b.platformCalls ++ calls ∧
        Brackets f.binding.isSome calls ∧
        ∀ r : Resource, r.held calls = if f.binding.isSome then 1 else 0) ∧
      f.binding.isSome = true ∧
      f.board.platformCalls.map Prod.fst =
        setUp ++ [.irqUnregister, .irqRemove, .gpioRelease] ++ setUp := by
  refine ⟨(platform_bracketed (δ := Store) { refuses := fun k _ => k = 5 }).1 _ ?_, ?_⟩
  · exact .step (.step .here (.registerIrq 1)) (.registerIrq 1)
  · have hrun : ∀ f, ((FifoStep.registerIrq 1).run f).2 = (Fifo.registerIrq 1 f).2 := fun _ => rfl
    rw [hrun, hrun]
    decide +kernel

end AdcCapture
