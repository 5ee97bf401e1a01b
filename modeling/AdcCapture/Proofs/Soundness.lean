/-
  Every run keeps the driver sound. The critical sections keep to `Driver.contract`: they break no
  assertion, they leave a sound driver, and a capture that is pending stays pending. Because of the
  last part whatever comes in at the interrupt points of a capture leaves the capture to be closed
  by the call that began it, and so soundness is carried through every run (`run_consistent`).
-/
import AdcCapture.Proofs.OperationCalls
import AdcCapture.Sink.Destination

namespace AdcCapture

/-- A call on a driver keeps it sound and leaves a pending capture pending. -/
def Driver.contract : Contract Driver where
  inv := Driver.Sound
  allows d d' := d.capture = .armed → d'.capture = .armed
  refl _ h := h
  trans h h' hd := h' (h hd)

/-! ## Calls to the driver -/

namespace Driver

open Board (Rules)

open Board.Rules (free_lax)

variable {ε α : Type}

theorem onBoard_obeys {a : Action Board ε α} (ha : a.Obeys Rules.lax.contract) :
    (onBoard a).Obeys contract :=
  .within ha (fun _ _ => trivial) fun _ b hd _ _ => ⟨hd.withBoard b, fun h => h⟩

theorem setWatermark_obeys (n : Nat) : (setWatermark n).Obeys contract := by
  intro d hd
  cases hc : d.capture with
  | armed =>
    rw [setWatermark_armed hc]
    exact .here hd rfl
  | idle =>
    obtain ⟨hsure, hshaped, hlive, -⟩ :=
      Fifo.setWatermark_obeys n ⟨trivial, free_lax.wide _, trivial⟩ d.fifo hd.shaped
    rw [setWatermark_idle hc]
    refine ⟨hsure, ?_, fun h => absurd (hc.symm.trans h) (fun h => nomatch h)⟩
    exact {
      live := hlive.trans hd.live
      shaped := hshaped
      sized := fun h => absurd (hc.symm.trans h) (fun h => nomatch h)
      signed := fun h => absurd (hc.symm.trans h) (fun h => nomatch h)
      unsigned := hd.unsigned
      stored := hd.stored }

theorem setCaptureTimeout_obeys (polls : UInt32) :
    (Action.update (setCaptureTimeout polls) : Action Driver ε Unit).Obeys contract :=
  .update fun _ hd =>
    ⟨⟨hd.live, hd.shaped, hd.sized, hd.signed, hd.unsigned, hd.stored⟩, fun h => h⟩

theorem capture_consumed (d : Driver) : d.consumed.capture = d.capture := by
  unfold consumed
  split <;> rfl

theorem capture_interrupted (d : Driver) : d.interrupted.capture = d.capture := by
  unfold interrupted
  split
  · exact capture_consumed _
  · rfl
  · rfl
  · rfl

theorem onInterrupt_obeys : onInterrupt.Obeys contract := by
  intro d hd
  rw [onInterrupt_eq hd]
  exact ⟨rfl, hd.interrupted, fun h => (capture_interrupted d).trans h⟩

theorem fifo_kept {a : Call Fifo α} (ha : a.Obeys (Fifo.contract Rules.lax)) {f g : Fifo}
    {o : Outcome Cause α} (hf : f.live = true ∧ f.Shaped) (h : a f = (o, g)) :
    g.live = true ∧ g.Shaped := by
  obtain ⟨-, hshaped, hlive, -⟩ := ha f hf.2
  rw [h] at hshaped hlive
  exact ⟨hlive.trans hf.1, hshaped⟩

/-- Every step of a start that succeeds has succeeded, and leaves the descriptor well shaped. -/
theorem bringUp_shaped {c : Config} {f g : Fifo} (hf : f.live = true ∧ f.Shaped)
    (h : bringUp c f = (.ok (), g)) : g.live = true ∧ g.Shaped := by
  obtain ⟨_, f₁, h₁, h⟩ := Action.of_bind_ok _ h
  obtain ⟨_, f₂, h₂, h⟩ := Action.of_bind_ok _ h
  obtain ⟨_, f₃, h₃, h₄⟩ := Action.of_bind_ok _ h
  have hf₁ := fifo_kept (Fifo.onBoard_obeys (Rules.lax.init trivial)) hf h₁
  rcases Action.of_recover_ok _ h₂ with h₂ | ⟨_, _, -, h₂⟩
  · have hf₂ := fifo_kept
      (Fifo.setWatermark_obeys _ ⟨trivial, free_lax.wide _, trivial⟩) hf₁ h₂
    rcases Action.of_recover_ok _ h₃ with h₃ | ⟨_, _, -, h₃⟩
    · have hf₃ := fifo_kept (Fifo.registerIrq_obeys _
        ⟨fun _ => trivial, fun _ => trivial, fun _ => trivial⟩) hf₂ h₃
      exact fifo_kept (Fifo.onBoard_obeys (Rules.lax.log _)) hf₃ h₄
    · obtain ⟨_, _, -, h₃⟩ := Action.of_bind_ok _ h₃
      cases h₃
  · cases h₂

theorem init_sound {c : Config} {b : Board} {d : Driver} (h : (init c b).1 = .ok d) :
    d.Sound := by
  have hfresh : ({ board := b } : Fifo).Shaped := fun _ hb => nomatch hb
  unfold init at h
  rcases hup : bringUp c { board := b } with ⟨o, f⟩
  rw [hup] at h
  cases o with
  | ok _ =>
    obtain ⟨hlive, hshaped⟩ := bringUp_shaped ⟨rfl, hfresh⟩ hup
    cases h
    exact {
      live := hlive
      shaped := hshaped
      sized := fun hc => nomatch hc
      signed := fun hc => nomatch hc
      unsigned := fun _ => rfl
      stored := fun hd => nomatch hd }
  | error e => cases h
  | fault x => cases h

end Driver

/-! ## Scenes -/

variable {δ : Type}

/-- Only sound drivers, and no broken assertion. -/
def Entry.Sound : Entry δ → Prop
  | passed d => d.Sound
  | ended _ before after o => before.Sound ∧ after.Sound ∧ o.fault? = none

namespace Scene

structure Sound (s : Scene δ) : Prop where
  driver : s.driver.Sound
  journal : ∀ e ∈ s.journal, e.Sound

def contract : Contract (Scene δ) where
  inv := Sound
  allows s t := s.driver.capture = .armed → t.driver.capture = .armed
  refl _ h := h
  trans h h' hs := h' (h hs)

theorem Sound.pass {s : Scene δ} (h : s.Sound) {d : Driver} (hd : d.Sound) : (s.pass d).Sound where
  driver := hd
  journal := List.forall_mem_cons.mpr ⟨hd, h.journal⟩

theorem Sound.note {s t : Scene δ} (hs : s.Sound) (ht : t.Sound) (op : Operation δ)
    {o : Outcome Cause Unit} (ho : o.fault? = none) : (Scene.note op s.driver (o, t)).Sound where
  driver := ht.driver
  journal := List.forall_mem_cons.mpr ⟨⟨hs.driver, ht.driver, ho⟩, ht.journal⟩

theorem within_driver_obeys {ε α : Type} {a : Action Driver ε α} (ha : a.Obeys Driver.contract) :
    (Action.within driverPart a : Action (Scene δ) ε α).Obeys contract :=
  .within ha (fun _ hs => hs.driver) fun _ _ hs hd hallowed => ⟨hs.pass hd, hallowed⟩

theorem admits : Admits Board.Rules.lax Driver.contract (contract : Contract (Scene δ)) where
  free := Board.Rules.free_lax
  disturb _ := .update fun _ _ => ⟨trivial, trivial⟩
  board := Driver.onBoard_obeys
  watermark := Driver.setWatermark_obeys
  driver := within_driver_obeys
  sink _ _ _ hs := ⟨⟨hs.driver, hs.journal⟩, fun h => h⟩

/-! ### Captures -/

theorem Sound.waiting {s : Scene δ} (h : s.Sound) : s.waiting.Sound :=
  (h.pass (h.driver.withBoard _)).pass (h.driver.withBoard _)

theorem guards : Guards (contract : Contract (Scene δ)) where
  sound hs := hs.driver
  pending h := h
  waiting := Sound.waiting

/-- A capture keeps to the contract if what comes in at its interrupt points does. -/
theorem captureOn_obeys {interrupts : Interrupts (Scene δ)}
    (harm : (Action.update interrupts.afterArm : Call (Scene δ) Unit).Obeys contract)
    (hwait : (Action.update interrupts.afterWait : Call (Scene δ) Unit).Obeys contract) :
    (Driver.captureOn driverPart interrupts).Obeys contract := by
  intro s hs
  rcases hs.driver.beginCapture with ⟨e, d, hbegin, hd, hcapture⟩ | ⟨b, hbegin, hd, hidle⟩
  · rw [captureOn_error interrupts hbegin]
    exact ⟨rfl, hs.pass hd, fun h => hcapture.trans h⟩
  · obtain ⟨t, u, -, -, hu, hpending, hrun⟩ := guards.captureOn harm hwait hbegin (hs.pass hd)
    obtain ⟨hsure, hend⟩ := hu.driver.endCapture hpending t.driver.captureTimeout
      t.driver.completion.waited
    rw [hrun]
    exact ⟨hsure, hu.pass hend, fun h => absurd (hidle.symm.trans h) (fun h => nomatch h)⟩

theorem carries [Sink δ] :
    Carries Board.Rules.lax Driver.contract (contract : Contract (Scene δ)) where
  toAdmits := admits
  interrupt := Driver.onInterrupt_obeys
  timeout := Driver.setCaptureTimeout_obeys
  capture := captureOn_obeys
  note op _ _ _ _ hs ht hallowed ho := ⟨hs.note ht op ho, hallowed⟩

theorem start_sound {c : Config} {b : Board} {d : Driver} (h : (Driver.init c b).1 = .ok d)
    (sinks : Nat → δ) : (Scene.start d sinks).Sound where
  driver := Driver.init_sound h
  journal := List.forall_mem_cons.mpr ⟨Driver.init_sound h, fun _ he => nomatch he⟩

end Scene

/-! ## Runs -/

namespace Operation

variable [Sink δ]

/-- Every operation keeps a scene sound and a pending capture pending. -/
theorem call_obeys (op : Operation δ) : op.call.Obeys Scene.contract :=
  call_carried Scene.carries op

theorem runAll_obeys (ops : List (Operation δ)) :
    (Action.update (runAll ops) : Call (Scene δ) Unit).Obeys Scene.contract :=
  runAll_carried Scene.carries ops

theorem runAll_sound (ops : List (Operation δ)) {s : Scene δ} (h : s.Sound) :
    (runAll ops s).Sound := (runAll_obeys ops s h).inv

end Operation

theorem Driver.Reachable.sound {d : Driver} (h : d.Reachable) : d.Sound := by
  obtain ⟨δ, _, c, b, d₀, sinks, ops, hinit, hd⟩ := h
  exact (Operation.runAll_sound ops (Scene.start_sound hinit sinks)).journal _ hd

/-- While a capture is pending there are buffers, a live descriptor and a completion that can be
signalled and waited on; while none is, the completion can be neither. -/
structure Driver.Consistent (d : Driver) : Prop where
  armed : d.capture = .armed →
    d.fifo.buffers.isSome ∧ d.fifo.live = true ∧ d.completion.signed = true
  idle : d.capture = .idle → d.completion.signed = false

theorem Driver.Sound.consistent {d : Driver} (h : d.Sound) : d.Consistent where
  armed hc := ⟨h.sized hc, h.live, h.signed hc⟩
  idle := h.unsigned

theorem Entry.Sound.fault?_eq {e : Entry δ} (h : e.Sound) : e.fault? = none := by
  cases e with
  | passed d => rfl
  | ended op before after o =>
    obtain ⟨-, -, ho⟩ := h
    cases o with
    | ok v => rfl
    | error e => rfl
    | fault x => cases ho

theorem Entry.Sound.drivers {e : Entry δ} (h : e.Sound) : ∀ d ∈ e.drivers, d.Sound := by
  intro d hd
  cases e with
  | passed d₀ =>
    rw [List.mem_singleton.mp hd]
    exact h
  | ended op before after o =>
    obtain ⟨hbefore, hafter, -⟩ := h
    rcases List.mem_cons.mp hd with rfl | hd
    · exact hbefore
    · rw [List.mem_singleton.mp hd]
      exact hafter

/-- A driver that was started, and then run with any operations, any operations inside their
captures, and any disturbances of the board in between, is consistent whenever it is outside a
critical section, and no operation breaks an assertion. -/
theorem Operation.run_consistent [Sink δ] {c : Config} {b : Board} {d : Driver}
    (h : (Driver.init c b).1 = .ok d) (sinks : Nat → δ) (ops : List (Operation δ)) :
    ∀ e ∈ (runAll ops (Scene.start d sinks)).journal,
      e.fault? = none ∧ ∀ x ∈ e.drivers, x.Consistent := by
  intro e he
  have hsound := (runAll_sound ops (Scene.start_sound h sinks)).journal e he
  exact ⟨hsound.fault?_eq, fun x hx => (hsound.drivers x hx).consistent⟩

/-- A board with the right converter, whose FIFO is full while it is armed. -/
def Board.probed (samples : List UInt32) : Board where
  registers := RegisterFile.empty.set Register.productIdLow 0x50
  fifo := Sample.pack 0 samples
  fillOnArm := true

/-- The board when one access fails, the one with this number. -/
def Board.stumbling (n : Nat) (b : Board) : Board :=
  { b with faults := { planned := fun k _ => if k = n then some 7 else none } }

/-- A capture with an interrupt after its arming, and one more when it is over. -/
theorem Operation.run_consistent_capture :
    ∃ d, (Driver.init { watermark := 2 } (Board.probed [1, 2])).1 = .ok d ∧
      (∀ e ∈ (runAll [.capture [.interrupt] [], .interrupt]
        (Scene.start d fun _ => ({ capacity := 0 } : Store))).journal,
          e.fault? = none ∧ ∀ x ∈ e.drivers, x.Consistent) ∧
      (runAll [.capture [.interrupt] [], .interrupt]
        (Scene.start d fun _ => ({ capacity := 0 } : Store))).driver.samples = #[1, 2] := by
  have hrun : ((Driver.init { watermark := 2 } (Board.probed [1, 2])).1.map fun d =>
      (runAll [.capture [.interrupt] [], .interrupt]
        (Scene.start d fun _ => ({ capacity := 0 } : Store))).driver.samples) = .ok #[1, 2] := by
    decide +kernel
  obtain ⟨d, hinit, hsamples⟩ := Outcome.of_map_ok hrun
  exact ⟨d, hinit, run_consistent hinit _ _, hsamples⟩

end AdcCapture
