/-
  Operations and contracts. What an operation does outside of its critical sections, to the board
  and to a sink, keeps to every contract for scenes that grants such calls (`Scene.Grants`).
  `Scene.Admits` is what contracts for boards, drivers and scenes have to grant so that the
  critical sections keep to them too: changes of the watermark and of the surroundings, and that a
  section on the driver is one on the scene. From it follow all operations but the interrupt and
  the captures; these are taken apart here (`captureOn_begun`) and judged for each contract on its
  own.
-/
import AdcCapture.Proofs.AttributeCalls
import AdcCapture.Proofs.DriverCalls
import AdcCapture.Proofs.Operation
import AdcCapture.Proofs.StagingBuffer

namespace AdcCapture

namespace Scene

variable {δ : Type}

/-- The contract lets calls to the board through, as far as the rules go, and any change of a
sink. -/
structure Grants (R : Board.Rules) (C : Contract (Scene δ)) : Prop where
  board : ∀ {ε α : Type} {a : Action Board ε α}, a.Obeys R.contract →
    (Action.within boardPart a : Action (Scene δ) ε α).Obeys C
  sink : ∀ i x (s : Scene δ), C.inv s →
    C.inv ((sinkPart i).set x s) ∧ C.allows s ((sinkPart i).set x s)

namespace Grants

variable {R : Board.Rules} {C : Contract (Scene δ)} (h : Grants R C)
include h

theorem changeSink (i : Nat) (f : δ → δ) :
    (Action.within (sinkPart i) (.update f) : Call (Scene δ) Unit).Obeys C := by
  intro s hs
  obtain ⟨hinv, hallowed⟩ := h.sink i (f (s.sinks i)) s hs
  exact ⟨rfl, hinv, hallowed⟩

/-! ## What a capture is part of -/

variable {interrupts : Interrupts (Scene δ)}

theorem textOn (a : Attribute) (hcapture : (Driver.captureOn driverPart interrupts).Obeys C) :
    (a.textOn driverPart interrupts).Obeys C := by
  have htext : (Action.within boardPart a.registerText : Call (Scene δ) String).Obeys C :=
    h.board (a.registerText_obeys R)
  cases a with
  | raw =>
    refine .bind hcapture fun _ => .bind .state fun s => ?_
    split
    · exact .pure _
    · exact .fail _
  | _ => exact htext

theorem showAttributeOn (index : Nat) (room : Option Nat)
    (hcapture : (Driver.captureOn driverPart interrupts).Obeys C) :
    (Driver.showAttributeOn driverPart interrupts index room).Obeys C := by
  unfold Driver.showAttributeOn
  cases Attribute.ofIndex? index with
  | none => exact .fail _
  | some a =>
    refine .bind (h.textOn a hcapture) fun text => ?_
    unfold Driver.fitting
    cases room with
    | none => exact .pure _
    | some n =>
      dsimp only
      split
      · exact .fail _
      · exact .pure _

variable [Sink δ]

theorem writeBlock (i : Nat) (block : List UInt32) :
    (Driver.writeBlock boardPart (sinkPart i) block : Call (Scene δ) Unit).Obeys C := by
  have hset : ∀ x, (Action.update ((sinkPart i).set x) : Call (Scene δ) Unit).Obeys C :=
    fun x => .update (h.sink i x)
  have hnote : ∀ n taken, (Action.within boardPart (Board.note (.sinkWrite n taken)) :
      Call (Scene δ) Unit).Obeys C :=
    fun n taken => h.board (R.note _ (fun h => nomatch h) rfl)
  refine .bind .state fun s => .bind (hset _) fun _ => .bind (hnote _ _) fun _ => ?_
  split
  · exact .pure ()
  · exact .fail _

theorem writeBlocks (i : Nat) (blocks : List (List UInt32)) :
    (Driver.writeBlocks boardPart (sinkPart i) blocks : Call (Scene δ) Unit).Obeys C := by
  induction blocks with
  | nil => exact .pure ()
  | cons block rest ih => exact .bind (h.writeBlock i block) fun _ => ih

theorem deliver (i : Nat) (samples : List UInt32) :
    (Driver.deliver boardPart (sinkPart i) samples : Call (Scene δ) Unit).Obeys C := by
  rw [Driver.deliver_eq]
  refine .bind .state fun s => ?_
  have hwrite : ∀ (room needed : Nat) blocks, (if room < needed then .fail .bufferFull
      else Driver.writeBlocks boardPart (sinkPart i) blocks : Call (Scene δ) Unit).Obeys C := by
    intro room needed blocks
    split
    · exact .fail _
    · exact h.writeBlocks i blocks
  dsimp only
  split
  · exact .bind (h.board (R.log _)) fun _ => hwrite _ _ _
  · exact hwrite _ _ _

theorem submitOn (i n : Nat)
    (hresize : (Action.within driverPart (Driver.setWatermark n) : Call (Scene δ) Unit).Obeys C)
    (hcapture : (Driver.captureOn driverPart interrupts).Obeys C) :
    (Driver.submitOn driverPart (sinkPart i) interrupts n).Obeys C := by
  have hrest : (do
      Driver.captureOn driverPart interrupts
      Driver.deliver boardPart (sinkPart i) (driverPart.get (← Action.state)).samples.toList :
        Call (Scene δ) Unit).Obeys C :=
    .bind hcapture fun _ => .bind .state fun s => h.deliver i _
  refine .bind .state fun s => ?_
  split
  · exact hrest
  · exact .bind hresize fun _ => hrest

end Grants

structure Admits (R : Board.Rules) (c : Contract Driver) (C : Contract (Scene δ)) : Prop where
  free : R.Free
  disturb : ∀ x : Disturbance, (Action.update x.change : Call Board Unit).Obeys R.contract
  board : ∀ {ε α : Type} {a : Action Board ε α}, a.Obeys R.contract → (Driver.onBoard a).Obeys c
  watermark : ∀ n, (Driver.setWatermark n).Obeys c
  driver : ∀ {ε α : Type} {a : Action Driver ε α}, a.Obeys c →
    (Action.within driverPart a : Action (Scene δ) ε α).Obeys C
  sink : ∀ i x (s : Scene δ), C.inv s →
    C.inv ((sinkPart i).set x s) ∧ C.allows s ((sinkPart i).set x s)

namespace Admits

variable {R : Board.Rules} {c : Contract Driver} {C : Contract (Scene δ)} (h : Admits R c C)
include h

theorem onBoard {ε α : Type} {a : Action Board ε α} (ha : a.Obeys R.contract) :
    (Action.within boardPart a : Action (Scene δ) ε α).Obeys C := h.driver (h.board ha)

theorem grants : Grants R C := ⟨h.onBoard, h.sink⟩

theorem apply (s : Attribute.Setting) : s.apply.Obeys c := by
  cases s with
  | offset v => exact h.board (Board.Rules.setSigned v (h.free.wide _))
  | direction p d => exact h.board (h.free.setField _ _)
  | function p f => exact h.board (h.free.setField _ _)
  | fifoMode m => exact h.board (h.free.setField _ _)
  | watermark w => exact h.watermark w
  | hysteresis v => exact h.board (Board.Rules.setWide v (h.free.wide _))
  | threshold t v => exact h.board (Board.Rules.setSigned v (h.free.wide _))
  | filter f => exact h.board (h.free.setField _ _)
  | sincRate r => exact h.board (h.free.setField _ _)
  | operatingMode m => exact h.board (h.free.setField _ _)

theorem storeAttribute (index : Nat) (input : String) :
    (Driver.storeAttribute index input).Obeys c := by
  unfold Driver.storeAttribute
  cases Attribute.ofIndex? index with
  | none => exact .fail _
  | some a =>
    refine .bind (h.board (R.log _)) fun _ => ?_
    exact .bind (.give (Attribute.parse_sure a input)) fun s => h.apply s

end Admits

/-! ## Captures -/

/-- The scene when the wait of a capture has ended. -/
def waiting (s : Scene δ) : Scene δ :=
  let d := s.driver.withBoard (s.driver.fifo.board.noted .captureArmed)
  (s.pass d).pass d

/-- The scene when a capture has closed. -/
def ended (x : Outcome Cause Unit × Driver) (s : Scene δ) : Outcome Cause Unit × Scene δ :=
  (x.1, s.pass x.2)

theorem captureOn_error (interrupts : Interrupts (Scene δ)) {s : Scene δ} {e : Cause} {d : Driver}
    (h : Driver.beginCapture s.driver = (.error e, d)) :
    Driver.captureOn driverPart interrupts s = (.error e, s.pass d) :=
  Action.bind_error _ (Action.within_eq s h) _

theorem captureOn_begun (interrupts : Interrupts (Scene δ)) {s : Scene δ} {d : Driver}
    (h : Driver.beginCapture s.driver = (.ok (), d))
    (hs : (interrupts.afterArm (s.pass d)).driver.completion.signed = true) :
    Driver.captureOn driverPart interrupts s =
      let t := interrupts.afterArm (s.pass d)
      let u := interrupts.afterWait t.waiting
      u.ended (Driver.endCapture t.driver.captureTimeout t.driver.completion.waited u.driver) := by
  have hbegin : Action.within driverPart Driver.beginCapture s = (.ok (), s.pass d) :=
    Action.within_eq s h
  generalize ht : interrupts.afterArm (s.pass d) = t at hs
  have hlog : Action.within driverPart (Driver.onBoard (Board.log .captureArmed)) t =
      ((.ok (), t.pass (t.driver.withBoard (t.driver.fifo.board.noted .captureArmed))) :
        Outcome Cause Unit × Scene δ) := rfl
  have hwait : (Action.attempt (Action.within (driverPart.andThen Driver.completionPart)
      (Completion.wait t.driver.captureTimeout.toNat)) : Call (Scene δ) _)
        (t.pass (t.driver.withBoard (t.driver.fifo.board.noted .captureArmed))) =
      (.ok t.driver.completion.waited, t.waiting) :=
    (Action.attempt_within _ _ _).trans (Action.within_eq _ (Completion.attempt_wait hs _))
  unfold Driver.captureOn
  rw [Action.bind_ok _ hbegin, Action.update_bind, ht, Action.bind_ok _ hlog, Action.state_bind]
  exact Action.bind_ok _ hwait _

/-- Under the contract drivers stay sound, and a capture that is pending stays pending. -/
structure Guards (C : Contract (Scene δ)) : Prop where
  sound : ∀ {s : Scene δ}, C.inv s → s.driver.Sound
  pending : ∀ {s t : Scene δ}, C.allows s t → s.driver.capture = .armed → t.driver.capture = .armed
  waiting : ∀ {s : Scene δ}, C.inv s → C.inv s.waiting

/-- A capture that has begun is closed by the call that began it, in the scene `u` that the
operations at its interrupt points have led to. -/
theorem Guards.captureOn {C : Contract (Scene δ)} (h : Guards C) {interrupts : Interrupts (Scene δ)}
    (harm : (Action.update interrupts.afterArm : Call (Scene δ) Unit).Obeys C)
    (hwait : (Action.update interrupts.afterWait : Call (Scene δ) Unit).Obeys C) {s : Scene δ}
    {b : Board} (hbegin : Driver.beginCapture s.driver = (.ok (), s.driver.begun b))
    (hs : C.inv (s.pass (s.driver.begun b))) :
    ∃ t u : Scene δ, C.allows (s.pass (s.driver.begun b)) t ∧ C.allows t.waiting u ∧ C.inv u ∧
      u.driver.capture = .armed ∧
      Driver.captureOn driverPart interrupts s =
        u.ended
          (Driver.endCapture t.driver.captureTimeout t.driver.completion.waited u.driver) := by
  obtain ⟨-, ht, hallowed⟩ := harm _ hs
  have harmed := h.pending hallowed rfl
  obtain ⟨-, hu, hallowed'⟩ := hwait _ (h.waiting ht)
  exact ⟨_, _, hallowed, hallowed', hu, h.pending hallowed' harmed,
    captureOn_begun interrupts hbegin ((h.sound ht).signed harmed)⟩

/-! ## Runs -/

/-- The contract for scenes holds of every operation: beside what it admits, interrupts keep to it,
and so do captures if what comes in at their interrupt points does, and it lets an entry into the
journal that tells of the end of an operation. -/
structure Carries [Sink δ] (R : Board.Rules) (c : Contract Driver) (C : Contract (Scene δ)) : Prop
    extends Admits R c C where
  interrupt : Driver.onInterrupt.Obeys c
  timeout : ∀ polls, (Action.update (Driver.setCaptureTimeout polls) : Call Driver Unit).Obeys c
  capture : ∀ {interrupts : Interrupts (Scene δ)},
    (Action.update interrupts.afterArm : Call (Scene δ) Unit).Obeys C →
    (Action.update interrupts.afterWait : Call (Scene δ) Unit).Obeys C →
    (Driver.captureOn driverPart interrupts).Obeys C
  note : ∀ (op : Operation δ) {s t : Scene δ} {o : Outcome Cause Unit}, op.call s = (o, t) →
    C.inv s → C.inv t → C.allows s t → o.fault? = none →
    C.inv (Scene.note op s.driver (o, t)) ∧ C.allows s (Scene.note op s.driver (o, t))

end Scene

namespace Operation

variable {δ : Type} [Sink δ] {R : Board.Rules} {c : Contract Driver} {C : Contract (Scene δ)}
  (h : Scene.Carries R c C)

include h

mutual

/-- The induction over the trees of operations goes into the operations at the interrupt points. -/
theorem call_carried : ∀ op : Operation δ, op.call.Obeys C
  | disturb x => h.onBoard (h.disturb x)
  | changeSink i f => h.grants.changeSink i f
  | converter s => h.onBoard (s.run_obeys h.free)
  | interrupt => .mapError _ (h.driver h.interrupt)
  | capture afterArm afterWait => h.capture (runAll_carried afterArm) (runAll_carried afterWait)
  | submit n i afterArm afterWait =>
    h.grants.submitOn i n (h.driver (h.watermark n))
      (h.capture (runAll_carried afterArm) (runAll_carried afterWait))
  | setWatermark n => h.driver (h.watermark n)
  | setTimeout polls => h.driver (h.timeout polls)
  | showAttribute index room afterArm afterWait =>
    .bind (h.grants.showAttributeOn index room
      (h.capture (runAll_carried afterArm) (runAll_carried afterWait))) fun _ => .pure ()
  | storeAttribute index input => h.driver (h.storeAttribute index input)
  | readDocumented a => .bind (h.onBoard (R.readDocumented a)) fun _ => .pure ()
  | writeDocumented a v => h.onBoard (R.writeDocumented a v (h.free _ rfl) (h.free _ rfl))

theorem runAll_carried : ∀ ops : List (Operation δ),
    (Action.update (runAll ops) : Call (Scene δ) Unit).Obeys C
  | [] => .update fun s hs => ⟨hs, C.refl s⟩
  | op :: rest => by
    intro s hs
    obtain ⟨hsure, ht, hallowed⟩ := call_carried op s hs
    obtain ⟨hnote, hended⟩ := h.note op rfl hs ht hallowed hsure
    obtain ⟨-, hu, hrest⟩ := runAll_carried rest _ hnote
    exact ⟨rfl, hu, C.trans hended hrest⟩

end

end Operation

end AdcCapture
