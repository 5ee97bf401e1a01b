/-
  One capture at a time. While a capture is pending, whatever else needs the buffers is turned away:
  a further capture or submission, a change of the watermark, a store of the watermark attribute,
  and showing the attribute that captures (`Operation.Contends`). It reports that the driver is
  busy, and nothing is left of it but a line in the log. So a call that captures ends as it would
  have ended without such an operation at its interrupt points (`Scene.contender_turned_away`): from
  there on the two runs differ in their past only, and what a call does has nothing to do with that.
-/
import AdcCapture.Proofs.AttributeInput
import AdcCapture.Proofs.BlockDelivery
import AdcCapture.Proofs.RecordMirror
import AdcCapture.Proofs.Soundness

namespace AdcCapture

variable {δ : Type}

/-! ## Operations that are turned away -/

/-- The later driver has more in its log, and nothing else has happened to it. -/
def Driver.Logged (d d' : Driver) : Prop :=
  ∃ es : List Event, (∀ e ∈ es, e.isLog = true) ∧ d' = d.withBoard (d.fifo.board.recorded es)

/-- An operation that needs the buffers, or would put others in their place. -/
inductive Operation.Contends : Operation δ → Prop where
  | capture (afterArm afterWait : List (Operation δ)) : Contends (.capture afterArm afterWait)
  | submit (n i : Nat) (afterArm afterWait : List (Operation δ)) :
      Contends (.submit n i afterArm afterWait)
  | setWatermark (n : Nat) : Contends (.setWatermark n)
  | showRaw {index : Nat} (h : Attribute.ofIndex? index = some .raw) (room : Option Nat)
      (afterArm afterWait : List (Operation δ)) :
      Contends (.showAttribute index room afterArm afterWait)
  | storeWatermark {index : Nat} (h : Attribute.ofIndex? index = some .fifoWatermark)
      {input : String} (haccepts : Attribute.fifoWatermark.domain.Accepts input) :
      Contends (.storeAttribute index input)

/-- Whether the operation leaves a line in the log also when it is turned away. -/
def Operation.stores : Operation δ → Bool
  | storeAttribute _ _ => true
  | _ => false

/-- An operation that contended for the buffers was turned away. -/
def Entry.TurnedAway : Entry δ → Prop
  | passed _ => True
  | ended op before after o => op.Contends → o = .error .busy ∧ before.Logged after

theorem Attribute.parse_fifoWatermark {input : String}
    (h : Attribute.fifoWatermark.domain.Accepts input) :
    ∃ n, Attribute.fifoWatermark.parse input = .ok (.watermark n) := by
  obtain ⟨n, hn, hadmitted⟩ := h
  have hfilter : (Text.unsigned? input).filter (fun n => 1 ≤ n && n ≤ fifoDepth) = some n := by
    rw [hn, Option.filter_some]
    exact if_pos hadmitted
  exact ⟨n, congrArg (fun o => (orInvalid o).map Setting.watermark) hfilter⟩

namespace Driver

variable {d : Driver}

/-- An accepted watermark goes to the log before it is refused. -/
theorem storeAttribute_armed (h : d.capture = .armed) {index : Nat} {input : String}
    (hindex : Attribute.ofIndex? index = some .fifoWatermark)
    (haccepts : Attribute.fifoWatermark.domain.Accepts input) :
    storeAttribute index input d = (.error .busy, d.withBoard
      (d.fifo.board.noted (.attributeStored Attribute.fifoWatermark.name input))) := by
  obtain ⟨n, hparse⟩ := Attribute.parse_fifoWatermark haccepts
  unfold storeAttribute
  rw [hindex]
  dsimp only
  rw [Action.bind_ok _ (onBoard_eq (Board.log_eq _ _)), hparse, Action.give_ok_bind]
  exact setWatermark_armed (d := d.withBoard (d.fifo.board.noted _)) h n

end Driver

section Armed

variable {s : Scene δ} (h : s.driver.capture = .armed)
include h

theorem Scene.captureOn_turned_away (interrupts : Interrupts (Scene δ)) :
    Driver.captureOn driverPart interrupts s = (.error .busy, s.pass s.driver) :=
  captureOn_error interrupts (Driver.beginCapture_armed h)

theorem Scene.showRaw_turned_away (interrupts : Interrupts (Scene δ)) {index : Nat}
    (hindex : Attribute.ofIndex? index = some .raw) (room : Option Nat) :
    Driver.showAttributeOn driverPart interrupts index room s =
      (.error .busy, s.pass s.driver) := by
  unfold Driver.showAttributeOn
  rw [hindex]
  exact Action.bind_error _ (Action.bind_error _ (captureOn_turned_away h interrupts) _) _

variable [Sink δ]

theorem Scene.submitOn_turned_away (interrupts : Interrupts (Scene δ)) (i n : Nat) :
    Driver.submitOn driverPart (sinkPart i) interrupts n s = (.error .busy, s.pass s.driver) := by
  have hset : Action.within driverPart (Driver.setWatermark n) s =
      (.error .busy, s.pass s.driver) := Action.within_eq s (Driver.setWatermark_armed h n)
  unfold Driver.submitOn
  rw [Action.state_bind]
  split
  · exact Action.bind_error _ (captureOn_turned_away h interrupts) _
  · exact Action.bind_error _ hset _

/-- While a capture is pending a contender reports that the driver is busy, and only a store leaves
something of it, a line in the log. -/
theorem Operation.Contends.call_armed {op : Operation δ} (hop : op.Contends) :
    ∃ es : List Event, (∀ e ∈ es, e.isLog = true) ∧ (es = [] ∨ op.stores = true) ∧
      op.call s =
        (.error .busy, s.pass (s.driver.withBoard (s.driver.fifo.board.recorded es))) := by
  have hnone : op.call s = (.error .busy, s.pass s.driver) →
      ∃ es : List Event, (∀ e ∈ es, e.isLog = true) ∧ (es = [] ∨ op.stores = true) ∧
        op.call s =
          (.error .busy, s.pass (s.driver.withBoard (s.driver.fifo.board.recorded es))) :=
    fun hcall => ⟨[], List.forall_mem_nil _, .inl rfl, hcall⟩
  cases hop with
  | capture a b => exact hnone (Scene.captureOn_turned_away h _)
  | submit n i a b => exact hnone (Scene.submitOn_turned_away h _ i n)
  | setWatermark n => exact hnone (Action.within_eq s (Driver.setWatermark_armed h n))
  | showRaw hindex room a b =>
    exact hnone (Action.bind_error _ (Scene.showRaw_turned_away h _ hindex room) _)
  | storeWatermark hindex haccepts =>
    exact ⟨[_], List.forall_mem_singleton.mpr rfl, .inr rfl,
      Action.within_eq s (Driver.storeAttribute_armed h hindex haccepts)⟩

end Armed

/-! ## What a journal shows of them -/

namespace Scene

/-- Whatever has contended since was turned away. -/
def TurnsAway (s t : Scene δ) : Prop :=
  ∃ new, t.journal = new ++ s.journal ∧ ∀ e ∈ new, e.TurnedAway

theorem TurnsAway.refl (s : Scene δ) : TurnsAway s s := ⟨[], rfl, List.forall_mem_nil _⟩

theorem TurnsAway.trans {s t u : Scene δ} (h : TurnsAway s t) (h' : TurnsAway t u) :
    TurnsAway s u := by
  obtain ⟨es, hes, hall⟩ := h
  obtain ⟨fs, hfs, hall'⟩ := h'
  refine ⟨fs ++ es, ?_, List.forall_mem_append.mpr ⟨hall', hall⟩⟩
  rw [hfs, hes, List.append_assoc]

theorem TurnsAway.pass (s : Scene δ) (d : Driver) : TurnsAway s (s.pass d) :=
  ⟨[.passed d], rfl, List.forall_mem_singleton.mpr trivial⟩

theorem TurnsAway.waiting (s : Scene δ) : TurnsAway s s.waiting :=
  (TurnsAway.pass _ _).trans (.pass _ _)

theorem TurnsAway.since_start {d : Driver} {sinks : Nat → δ} {t : Scene δ}
    (h : TurnsAway (start d sinks) t) : ∀ e ∈ t.journal, e.TurnedAway := by
  obtain ⟨new, hnew, hall⟩ := h
  rw [hnew]
  exact List.forall_mem_append.mpr ⟨hall, List.forall_mem_singleton.mpr trivial⟩

/-- What happens at the interrupt points: a pending capture stays pending, and what contends is
turned away. -/
def exclusive : Contract (Scene δ) where
  inv := Sound
  allows s t := s.driver.capture = .armed → t.driver.capture = .armed ∧ TurnsAway s t
  refl s h := ⟨h, .refl s⟩
  trans h h' hs := ⟨(h' (h hs).1).1, (h hs).2.trans (h' (h hs).1).2⟩

theorem within_driver_exclusive {ε α : Type} {a : Action Driver ε α}
    (ha : a.Obeys Driver.contract) :
    (Action.within driverPart a : Action (Scene δ) ε α).Obeys exclusive :=
  .within ha (fun _ hs => hs.driver) fun _ _ hs hd hallowed =>
    ⟨hs.pass hd, fun h => ⟨hallowed h, .pass _ _⟩⟩

/-- A capture keeps to it: either it is turned away itself, or it has begun with no capture
pending. -/
theorem captureOn_exclusive {interrupts : Interrupts (Scene δ)}
    (harm : (Action.update interrupts.afterArm : Call (Scene δ) Unit).Obeys exclusive)
    (hwait : (Action.update interrupts.afterWait : Call (Scene δ) Unit).Obeys exclusive) :
    (Driver.captureOn driverPart interrupts).Obeys exclusive := by
  have hweak : ∀ {f : Scene δ → Scene δ},
      (Action.update f : Call (Scene δ) Unit).Obeys exclusive →
      (Action.update f : Call (Scene δ) Unit).Obeys contract :=
    fun h s hs => ⟨rfl, (h s hs).inv, fun hc => ((h s hs).allowed hc).1⟩
  intro s hs
  obtain ⟨hsure, hsound, hstays⟩ := captureOn_obeys (hweak harm) (hweak hwait) s hs
  refine ⟨hsure, hsound, fun h => ⟨hstays h, ?_⟩⟩
  rw [captureOn_turned_away h]
  exact .pass s _

theorem carries_exclusive [Sink δ] :
    Carries Board.Rules.lax Driver.contract (exclusive : Contract (Scene δ)) where
  free := Board.Rules.free_lax
  disturb _ := .update fun _ _ => ⟨trivial, trivial⟩
  board := Driver.onBoard_obeys
  watermark := Driver.setWatermark_obeys
  driver := within_driver_exclusive
  sink _ _ s hs := ⟨⟨hs.driver, hs.journal⟩, fun h => ⟨h, [], rfl, List.forall_mem_nil _⟩⟩
  interrupt := Driver.onInterrupt_obeys
  timeout := Driver.setCaptureTimeout_obeys
  capture := captureOn_exclusive
  note op s t o hcall hs ht hallowed ho := by
    refine ⟨hs.note ht op ho, fun h => ?_⟩
    obtain ⟨harmed, haway⟩ := hallowed h
    refine ⟨harmed, haway.trans ⟨[_], rfl, List.forall_mem_singleton.mpr fun hop => ?_⟩⟩
    obtain ⟨es, hes, -, hbusy⟩ := hop.call_armed h
    cases hcall.symm.trans hbusy
    exact ⟨rfl, es, hes, rfl⟩

/-- A call that captures, with what has contended for the buffers meanwhile. -/
def turning : Contract (Scene δ) where
  inv := Sound
  allows := TurnsAway
  refl := .refl
  trans := .trans

theorem grants_turning : Grants Board.Rules.lax (turning : Contract (Scene δ)) where
  board ha := .within ha (fun _ _ => trivial) fun s b hs _ _ =>
    ⟨hs.pass (hs.driver.withBoard b), .pass s _⟩
  sink _ _ _ hs := ⟨⟨hs.driver, hs.journal⟩, [], rfl, List.forall_mem_nil _⟩

theorem captureOn_turning {interrupts : Interrupts (Scene δ)}
    (harm : (Action.update interrupts.afterArm : Call (Scene δ) Unit).Obeys exclusive)
    (hwait : (Action.update interrupts.afterWait : Call (Scene δ) Unit).Obeys exclusive) :
    (Driver.captureOn driverPart interrupts).Obeys turning := by
  intro s hs
  rcases hs.driver.beginCapture with ⟨e, d, hbegin, hd, -⟩ | ⟨b, hbegin, hd, -⟩
  · rw [captureOn_error interrupts hbegin]
    exact ⟨rfl, hs.pass hd, .pass s d⟩
  · have hguards : Guards (exclusive : Contract (Scene δ)) :=
      ⟨fun hs => hs.driver, fun h hc => (h hc).1, Sound.waiting⟩
    obtain ⟨t, u, harm, hwait, hu, hpending, hrun⟩ :=
      hguards.captureOn harm hwait hbegin (hs.pass hd)
    obtain ⟨hsure, hend⟩ := hu.driver.endCapture hpending t.driver.captureTimeout
      t.driver.completion.waited
    rw [hrun]
    refine ⟨hsure, hu.pass hend, ?_⟩
    obtain ⟨harmed, haway⟩ := harm rfl
    obtain ⟨-, haway'⟩ := hwait harmed
    exact (TurnsAway.pass s _).trans (haway.trans ((TurnsAway.waiting t).trans
      (haway'.trans (.pass _ _))))

/-! ## The same call without them -/

/-- How a call ends, `x`, and how it ends with something in its past of which only the log tells. -/
def Unseen {α : Type} (x y : Outcome Cause α × Scene δ) : Prop :=
  y = x ∨ ∃ P : Past δ, (∀ e ∈ P.events, e.isLog = true) ∧ P.scene.inv x.2 ∧
    y = (x.1, P.scene.image x.2)

/-- How a call that captures ends without an operation at one of its interrupt points, `x`, and with
it, `y`: whatever contended for the buffers was turned away, and in the end nothing is different but
the log. -/
structure Unaffected {α : Type} (x y : Outcome Cause α × Scene δ) : Prop where
  away : ∀ e ∈ y.2.journal, e.TurnedAway
  outcome : y.1 = x.1
  sinks : y.2.sinks = x.2.sinks
  driver : ∃ record,
    y.2.driver = x.2.driver.withBoard { x.2.driver.fifo.board with record } ∧
    record.filter (!·.isLog) = x.2.driver.fifo.board.record.filter (!·.isLog)

theorem Unseen.unaffected {α : Type} {x y : Outcome Cause α × Scene δ} (h : Unseen x y)
    (haway : ∀ e ∈ y.2.journal, e.TurnedAway) : Unaffected x y := by
  rcases h with rfl | ⟨P, hlogs, -, rfl⟩
  · exact ⟨haway, rfl, rfl, _, rfl, rfl⟩
  · refine ⟨haway, rfl, rfl, _, P.driver_image x.2.driver, ?_⟩
    exact filter_insertBelow P.events (fun e he => by rw [hlogs e he]; rfl) P.onBoard _

/-- Whatever comes next does not tell them apart. -/
theorem Unseen.bind {α β : Type} {a a' : Call (Scene δ) α} {f : α → Call (Scene δ) β} {s : Scene δ}
    (h : Unseen (a s) (a' s))
    (hf : ∀ (P : Past δ) v, (f v).Mirrors P.scene (Failure.through id) id (f v)) :
    Unseen ((a >>= f) s) ((a' >>= f) s) := by
  rw [Action.bind_apply, Action.bind_apply]
  rcases h with h | ⟨P, hlogs, hinv, h⟩
  · rw [h]
    exact .inl rfl
  · rw [h]
    rcases ha : a s with ⟨o, t⟩
    rw [ha] at hinv
    cases o with
    | ok v =>
      obtain ⟨hrun, hinv'⟩ := P.run_eq (hf P v) hinv
      exact .inr ⟨P, hlogs, hinv', hrun⟩
    | error e => exact .inr ⟨P, hlogs, hinv, rfl⟩
    | fault x => exact .inr ⟨P, hlogs, hinv, rfl⟩

theorem waiting_past (P : Past δ) {s : Scene δ} (hs : P.scene.inv s) :
    (P.scene.image s).waiting = P.scene.image s.waiting ∧ P.scene.inv s.waiting := by
  -- The wait itself changes nothing, but it is a section of its own.
  let wait : Call (Scene δ) Unit := do
    Action.within driverPart (Driver.onBoard (Board.log .captureArmed))
    Action.within driverPart (.update id)
  have hwait : wait.Mirrors P.scene (Failure.through id) id wait :=
    .bind (.within P.driverPart_mirrored (Driver.log_mirrors P.faithful .captureArmed)) fun _ =>
      .within P.driverPart_mirrored (.update fun _ hd => ⟨rfl, hd⟩)
  obtain ⟨hrun, hinv⟩ := P.run_eq hwait hs
  exact ⟨congrArg Prod.snd hrun, hinv⟩

theorem ended_past (P : Past δ) {s : Scene δ} (hs : P.scene.inv s) (polls : UInt32)
    (waited : Except TimedOut (Except Cause Unit)) :
    (P.scene.image s).ended (Driver.endCapture polls waited (P.scene.image s).driver) =
        ((s.ended (Driver.endCapture polls waited s.driver)).1,
          P.scene.image (s.ended (Driver.endCapture polls waited s.driver)).2) ∧
      P.scene.inv (s.ended (Driver.endCapture polls waited s.driver)).2 := by
  have hend := Action.Mirrors.within P.driverPart_mirrored
    (Driver.endCapture_mirrors P.faithful polls waited)
  rw [Driver.resultThrough_id, bothMap_id] at hend
  exact P.run_eq hend hs

end Scene

/-- What the disturbance does to a board has nothing to do with the log. -/
def Disturbance.IgnoresLog (x : Disturbance) : Prop :=
  ∀ b r, r.filter (!·.isLog) = b.record.filter (!·.isLog) →
    x.change { b with record := r } = { x.change b with record := r }

theorem Disturbance.IgnoresLog.spared {x : Disturbance} (h : x.IgnoresLog) {P : Past δ}
    (hlogs : ∀ e ∈ P.events, e.isLog = true) : P.Spared x := by
  intro b _
  have hfilter := filter_insertBelow P.events (p := (!·.isLog))
    (fun e he => by rw [hlogs e he]; rfl) P.onBoard b.record
  have hchange := h b _ hfilter
  exact hchange.trans (congrArg (fun r =>
    { x.change b with record := insertBelow id P.events P.onBoard r }) (x.record_eq b).symm)

/-- Where nothing has happened on the board, there is nothing to be seen there. -/
theorem Past.spared_of_nil {P : Past δ} (h : P.events = []) (x : Disturbance) : P.Spared x := by
  have himage : ∀ b, P.board.image b = b := by
    intro b
    have hrecord := insertBelow_nil P.onBoard b.record
    rw [← h] at hrecord
    exact congrArg (fun r => { b with record := r }) hrecord
  intro b _
  rw [himage, himage]

theorem Past.spares (P : Past δ) {op : Operation δ} (hlogs : ∀ e ∈ P.events, e.isLog = true)
    (hes : P.events = [] ∨ op.stores = true) {xs : List Disturbance}
    (h : op.stores = true → ∀ x ∈ xs, x.IgnoresLog) : ∀ x ∈ xs, P.Spared x := by
  intro x hx
  rcases hes with hnil | hstores
  · exact spared_of_nil hnil x
  · exact (h hstores x hx).spared hlogs

section Adding

variable [Sink δ]

theorem Operation.runAll_append (ops ops' : List (Operation δ)) (s : Scene δ) :
    runAll (ops ++ ops') s = runAll ops' (runAll ops s) := by
  induction ops generalizing s with
  | nil => rfl
  | cons op rest ih => exact ih _

/-- The second interrupts have the operation besides, among others at one of the two interrupt
points. If it leaves a line in the log, the disturbances that follow do not look at it. -/
inductive Operation.Adds (op : Operation δ) :
    Interrupts (Scene δ) → Interrupts (Scene δ) → Prop where
  | afterArm (earlier later afterWait : List (Operation δ))
      (h : op.stores = true →
        ∀ x ∈ allDisturbances later ++ allDisturbances afterWait, x.IgnoresLog) :
      Adds op (during (earlier ++ later) afterWait) (during (earlier ++ op :: later) afterWait)
  | afterWait (afterArm earlier later : List (Operation δ))
      (h : op.stores = true → ∀ x ∈ allDisturbances later, x.IgnoresLog) :
      Adds op (during afterArm (earlier ++ later)) (during afterArm (earlier ++ op :: later))

/-- With a contender that was turned away there is more in the past, and nothing else. -/
theorem Operation.Contends.past {op : Operation δ} (hop : op.Contends) {s : Scene δ}
    (h : s.driver.capture = .armed) :
    ∃ P : Past δ, (∀ e ∈ P.events, e.isLog = true) ∧ (P.events = [] ∨ op.stores = true) ∧
      P.scene.inv s ∧ Scene.note op s.driver (op.call s) = P.scene.image s := by
  obtain ⟨es, hlogs, hes, hcall⟩ := hop.call_armed h
  let d := s.driver.withBoard (s.driver.fifo.board.recorded es)
  refine ⟨.since es [.ended op s.driver d (.error .busy), .passed d] s, hlogs, hes,
    Past.inv_since _ _ s, ?_⟩
  rw [hcall, Past.image_since]
  rfl

/-- What was turned away among the operations at an interrupt point leaves the rest of them as they
are. -/
theorem Operation.Contends.runAll_past {op : Operation δ} (hop : op.Contends) {s : Scene δ}
    (hs : s.Sound) (h : s.driver.capture = .armed) (earlier : List (Operation δ))
    {later : List (Operation δ)}
    (hspares : op.stores = true → ∀ x ∈ allDisturbances later, x.IgnoresLog) :
    ∃ P : Past δ, (∀ e ∈ P.events, e.isLog = true) ∧ (P.events = [] ∨ op.stores = true) ∧
      P.scene.inv (runAll (earlier ++ later) s) ∧
      runAll (earlier ++ op :: later) s = P.scene.image (runAll (earlier ++ later) s) := by
  obtain ⟨-, hsound, hstays⟩ := runAll_obeys earlier s hs
  obtain ⟨P, hlogs, hes, hinv, hnote⟩ := hop.past (hstays h)
  obtain ⟨hrun, hinv'⟩ := runAll_mirrors P later (P.spares hlogs hes hspares) _ hinv
  refine ⟨P, hlogs, hes, ?_, ?_⟩
  · rw [runAll_append]
    exact hinv'
  · rw [runAll_append, runAll_append]
    exact (congrArg (runAll later) hnote).trans hrun

namespace Scene

variable {op : Operation δ} {without within : Interrupts (Scene δ)}

theorem captureOn_unseen (hop : op.Contends) (h : op.Adds without within) {s : Scene δ}
    (hs : s.Sound) :
    Unseen (Driver.captureOn driverPart without s) (Driver.captureOn driverPart within s) := by
  rcases hs.driver.beginCapture with ⟨e, d, hbegin, -⟩ | ⟨b, hbegin, hd, -⟩
  · rw [captureOn_error without hbegin, captureOn_error within hbegin]
    exact .inl rfl
  have hbegun : (s.pass (s.driver.begun b)).Sound := hs.pass hd
  have hends : ∀ {afterArm afterWait : List (Operation δ)} {t : Scene δ},
      Operation.runAll afterArm (s.pass (s.driver.begun b)) = t →
      t.driver.completion.signed = true →
      Driver.captureOn driverPart (Operation.during afterArm afterWait) s =
        let v := Operation.runAll afterWait t.waiting
        v.ended
          (Driver.endCapture t.driver.captureTimeout t.driver.completion.waited v.driver) := by
    rintro afterArm afterWait _ rfl hsigned
    exact captureOn_begun (Operation.during afterArm afterWait) hbegin hsigned
  have harmed : ∀ afterArm : List (Operation δ),
      (Operation.runAll afterArm (s.pass (s.driver.begun b))).Sound ∧
      (Operation.runAll afterArm (s.pass (s.driver.begun b))).driver.capture = .armed := by
    intro afterArm
    obtain ⟨-, hsound, hstays⟩ := Operation.runAll_obeys afterArm _ hbegun
    exact ⟨hsound, hstays rfl⟩
  cases h with
  | afterArm earlier later afterWait hspares =>
    obtain ⟨P, hlogs, hes, hinv, hrun⟩ := hop.runAll_past hbegun rfl earlier fun hstores x hx =>
      hspares hstores x (List.mem_append_left _ hx)
    obtain ⟨hsound, hpending⟩ := harmed (earlier ++ later)
    have hsigned := hsound.driver.signed hpending
    generalize ht : Operation.runAll (earlier ++ later) (s.pass (s.driver.begun b)) = t at *
    have hcompletion := P.completion_image t
    rw [hends ht hsigned, hends hrun (hcompletion ▸ hsigned), hcompletion]
    obtain ⟨hwaiting, hinv⟩ := waiting_past P hinv
    obtain ⟨hwait, hinv⟩ := Operation.runAll_mirrors P afterWait (P.spares hlogs hes
      fun hstores x hx => hspares hstores x (List.mem_append_right _ hx)) _ hinv
    rw [hwaiting, hwait]
    obtain ⟨hend, hinv⟩ := ended_past P hinv t.driver.captureTimeout t.driver.completion.waited
    exact .inr ⟨P, hlogs, hinv, hend⟩
  | afterWait afterArm earlier later hspares =>
    obtain ⟨hsound, hpending⟩ := harmed afterArm
    have hsigned := hsound.driver.signed hpending
    rw [hends rfl hsigned, hends rfl hsigned]
    generalize Operation.runAll afterArm (s.pass (s.driver.begun b)) = t at *
    obtain ⟨P, hlogs, hes, hinv, hrun⟩ := hop.runAll_past hsound.waiting hpending earlier hspares
    rw [hrun]
    obtain ⟨hend, hinv⟩ := ended_past P hinv t.driver.captureTimeout t.driver.completion.waited
    exact .inr ⟨P, hlogs, hinv, hend⟩

theorem submitOn_unseen (hop : op.Contends) (h : op.Adds without within) {s : Scene δ}
    (hs : s.Sound) (i n : Nat) :
    Unseen (Driver.submitOn driverPart (sinkPart i) without n s)
      (Driver.submitOn driverPart (sinkPart i) within n s) := by
  let delivery : Call (Scene δ) Unit := do
    Driver.deliver boardPart (sinkPart i) (driverPart.get (← Action.state)).samples.toList
  have hrest : ∀ {t : Scene δ}, t.Sound →
      Unseen ((Driver.captureOn driverPart without >>= fun _ => delivery) t)
        ((Driver.captureOn driverPart within >>= fun _ => delivery) t) := fun ht =>
    (captureOn_unseen hop h ht).bind fun P _ =>
      Driver.deliverSamples_mirrors P.faithful P.driverPart_mirrored (P.sinkPart_mirrored i)
  unfold Driver.submitOn
  rw [Action.state_bind, Action.state_bind]
  split
  · exact hrest hs
  · -- The change of the watermark comes before the capture, and is the same on both sides.
    obtain ⟨-, hsound, -⟩ := within_driver_obeys (Driver.setWatermark_obeys n) s hs
    rw [Action.bind_apply, Action.bind_apply]
    generalize Action.within driverPart (Driver.setWatermark n) s = x at hsound
    obtain ⟨o, t⟩ := x
    cases o with
    | ok _ => exact hrest hsound
    | error e => exact .inl rfl
    | fault b => exact .inl rfl

theorem showAttributeOn_unseen (hop : op.Contends) (h : op.Adds without within) {s : Scene δ}
    (hs : s.Sound) (index : Nat) (room : Option Nat) :
    Unseen (Driver.showAttributeOn driverPart without index room s)
      (Driver.showAttributeOn driverPart within index room s) := by
  unfold Driver.showAttributeOn
  cases Attribute.ofIndex? index with
  | none => exact .inl rfl
  | some a =>
    refine Unseen.bind ?_ fun P text => Driver.fitting_mirrors room text
    cases a with
    | raw =>
      exact (captureOn_unseen hop h hs).bind fun P _ =>
        Attribute.firstSample_mirrors P.driverPart_mirrored
    | _ => exact .inl rfl

/-! ## One capture at a time -/

theorem turning_of_adds (h : op.Adds without within) :
    (Driver.captureOn driverPart within).Obeys turning := by
  have hrun := fun ops : List (Operation δ) => Operation.runAll_carried carries_exclusive ops
  cases h with
  | afterArm earlier later afterWait => exact captureOn_turning (hrun _) (hrun _)
  | afterWait afterArm earlier later => exact captureOn_turning (hrun _) (hrun _)

/-- While a capture is pending, whatever contends for the buffers is turned away: it reports that
the driver is busy, and it has done nothing to the driver and the sinks, except for a line that it
may have left in the log. And with a contender at either interrupt point of a call that captures,
made on any driver that a run leaves behind, every contender there is turned away, and the call has
the same result as without that one, and leaves the same sinks and the same driver, but for its
log. -/
theorem contender_turned_away {d : Driver} (hd : d.Reachable) (sinks : Nat → δ)
    (hop : op.Contends) :
    (∀ s : Scene δ, s.driver.capture = .armed →
      ∃ d', s.driver.Logged d' ∧ op.call s = (.error .busy, s.pass d')) ∧
    ∀ without within, op.Adds without within →
      let s := start d sinks
      Unaffected (Driver.captureOn driverPart without s) (Driver.captureOn driverPart within s) ∧
      (∀ n i, Unaffected (Driver.submitOn driverPart (sinkPart i) without n s)
        (Driver.submitOn driverPart (sinkPart i) within n s)) ∧
      ∀ index room, Unaffected (Driver.showAttributeOn driverPart without index room s)
        (Driver.showAttributeOn driverPart within index room s) := by
  refine ⟨fun s h => ?_, fun without within hadds => ?_⟩
  · obtain ⟨es, hlogs, -, hcall⟩ := hop.call_armed h
    exact ⟨_, ⟨es, hlogs, rfl⟩, hcall⟩
  intro s
  have hs : s.Sound := ⟨hd.sound, List.forall_mem_singleton.mpr hd.sound⟩
  have hcapture := turning_of_adds hadds
  have hresize : ∀ n, (Action.within driverPart (Driver.setWatermark n) :
      Call (Scene δ) Unit).Obeys turning := fun n =>
    .within (Driver.setWatermark_obeys n) (fun _ hs => hs.driver) fun s _ hs hd _ =>
      ⟨hs.pass hd, .pass s _⟩
  refine ⟨?_, fun n i => ?_, fun index room => ?_⟩
  · exact (captureOn_unseen hop hadds hs).unaffected (hcapture s hs).allowed.since_start
  · exact (submitOn_unseen hop hadds hs i n).unaffected
      (grants_turning.submitOn i n (hresize n) hcapture s hs).allowed.since_start
  · exact (showAttributeOn_unseen hop hadds hs index room).unaffected
      (grants_turning.showAttributeOn index room hcapture s hs).allowed.since_start

end Scene

end Adding

/-- A watermark is stored during a submission, before the FIFO is filled anew. -/
theorem Scene.contender_turned_away_store :
    ∃ d, (Driver.init { watermark := 2 } (Board.probed [1, 2])).1 = .ok d ∧
      let sinks : Nat → Ring := fun _ => Ring.fresh 12 (by decide) (by decide)
      let store : Operation Ring := .storeAttribute 12 "5"
      let refill : Disturbance := ⟨fun b => { b with fifo := Sample.pack 0 [3, 4] }, fun _ => rfl⟩
      let s := start (Driver.beginCapture d).2 sinks
      let submit := fun afterArm =>
        Driver.submitOn driverPart (sinkPart 0) (Operation.during afterArm []) 2 (start d sinks)
      s.driver.capture = .armed ∧
      (∃ d', s.driver.Logged d' ∧ store.call s = (.error .busy, s.pass d')) ∧
      Unaffected (submit [.disturb refill, .interrupt])
        (submit [store, .disturb refill, .interrupt]) ∧
      (submit [.disturb refill, .interrupt]).1 = .ok () ∧
      (submit [store, .disturb refill, .interrupt]).2.driver.samples = #[3, 4] := by
  have hrun : ((Driver.init { watermark := 2 } (Board.probed [1, 2])).1.map fun d =>
      let sinks : Nat → Ring := fun _ => Ring.fresh 12 (by decide) (by decide)
      let store : Operation Ring := .storeAttribute 12 "5"
      let refill : Disturbance := ⟨fun b => { b with fifo := Sample.pack 0 [3, 4] }, fun _ => rfl⟩
      let submit := fun afterArm =>
        Driver.submitOn driverPart (sinkPart 0) (Operation.during afterArm []) 2 (start d sinks)
      decide ((Driver.beginCapture d).2.capture = .armed ∧
        (submit [.disturb refill, .interrupt]).1 = .ok () ∧
        (submit [store, .disturb refill, .interrupt]).2.driver.samples = #[3, 4])) = .ok true := by
    decide +kernel
  obtain ⟨d, hinit, hrun⟩ := Outcome.of_map_ok hrun
  have hd : d.Reachable := ⟨Ring, inferInstance, _, _, d,
    fun _ => Ring.fresh 12 (by decide) (by decide), [], hinit, List.mem_singleton_self _⟩
  refine ⟨d, hinit, ?_⟩
  intro sinks store refill s submit
  obtain ⟨harmed, hok, hsamples⟩ := of_decide_eq_true hrun
  have hop : store.Contends := .storeWatermark rfl ⟨5, by decide +kernel, by decide⟩
  have hadds : store.Adds (Operation.during [.disturb refill, .interrupt] [])
      (Operation.during [store, .disturb refill, .interrupt] []) :=
    .afterArm [] [.disturb refill, .interrupt] [] fun _ =>
      List.forall_mem_singleton.mpr fun _ _ _ => rfl
  obtain ⟨hlocal, hcalls⟩ := contender_turned_away hd sinks hop
  obtain ⟨-, hsubmit, -⟩ := hcalls _ _ hadds
  exact ⟨harmed, hlocal s harmed, hsubmit 2 0, hok, hsamples⟩

end AdcCapture
