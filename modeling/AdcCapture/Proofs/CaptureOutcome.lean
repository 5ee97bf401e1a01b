/-
  What a capture comes back with. Whatever comes in at its two interrupt points, a capture ends in
  one of four ways (`Scene.CaptureEnds`): it could not be armed; it was read out by the first
  interrupt that found the FIFO full, well or with a bus error; or no interrupt found it full, and
  it timed out and turned the FIFO off. Interrupts other than that first one read nothing and
  change nothing. While a capture is pending, the state of things is a `Progress`, which every
  operation carries on: an interrupt by `Progress.interrupt`, anything else because it leaves the
  completion and the buffers alone (`Scene.busy`).
-/
import AdcCapture.Proofs.InterruptReadouts
import AdcCapture.Proofs.Soundness

namespace AdcCapture

/-! ## Calls on a driver during a capture -/

namespace Driver

/-- A call on an armed driver leaves the completion and the buffers as they are. -/
def busy : Contract Driver where
  inv d := d.Sound ∧ d.capture = .armed
  allows d e := e.completion = d.completion ∧ e.fifo.buffers = d.fifo.buffers ∧
    d.fifo.board.readouts ≤ e.fifo.board.readouts
  refl _ := ⟨rfl, rfl, Nat.le_refl _⟩
  trans h h' := ⟨h'.1.trans h.1, h'.2.1.trans h.2.1, Nat.le_trans h.2.2 h'.2.2⟩

theorem onBoard_busy {ε α : Type} {a : Action Board ε α}
    (ha : a.Obeys Board.Rules.growing.contract) : (onBoard a).Obeys busy :=
  .within ha (fun _ _ => trivial) fun _ b hd _ hle => ⟨⟨hd.1.withBoard b, hd.2⟩, rfl, rfl, hle⟩

theorem setWatermark_busy (n : Nat) : (setWatermark n).Obeys busy := by
  intro d hd
  rw [setWatermark_armed hd.2]
  exact .here hd rfl

theorem setCaptureTimeout_busy {ε : Type} (polls : UInt32) :
    (Action.update (setCaptureTimeout polls) : Action Driver ε Unit).Obeys busy :=
  .update fun _ ⟨hd, harmed⟩ =>
    ⟨⟨⟨hd.live, hd.shaped, hd.sized, hd.signed, hd.unsigned, hd.stored⟩, harmed⟩,
      rfl, rfl, Nat.le_refl _⟩

end Driver

/-! ## The journal of a capture -/

variable {δ : Type}

/-- The driver before and after an operation, if that was an interrupt. -/
def Entry.interrupt? : Entry δ → Option (Driver × Driver)
  | ended .interrupt before after _ => some (before, after)
  | _ => none

/-- The driver after an entry. -/
def Entry.latest : Entry δ → Driver
  | passed d => d
  | ended _ _ after _ => after

/-- The readouts that were made during an operation. -/
def Entry.readouts : Entry δ → Nat
  | passed _ => 0
  | ended _ before after _ => after.fifo.board.readouts - before.fifo.board.readouts

/-- The interrupts of a journal, the earliest first. -/
def interrupts (journal : List (Entry δ)) : List (Driver × Driver) :=
  (journal.filterMap Entry.interrupt?).reverse

/-- The readouts that were made during the operations of a journal. -/
def readouts (journal : List (Entry δ)) : Nat := journal.foldr (fun e n => e.readouts + n) 0

theorem interrupts_passed (ds : List Driver) (journal : List (Entry δ)) :
    interrupts (ds.map Entry.passed ++ journal) = interrupts journal := by
  induction ds with
  | nil => rfl
  | cons d rest ih => exact ih

theorem readouts_passed (ds : List Driver) (journal : List (Entry δ)) :
    readouts (ds.map Entry.passed ++ journal) = readouts journal := by
  induction ds with
  | nil => rfl
  | cons d rest ih =>
    refine Eq.trans ?_ ih
    exact Nat.zero_add _

theorem interrupts_interrupt (before after : Driver) (o : Outcome Cause Unit)
    (journal : List (Entry δ)) :
    interrupts (.ended .interrupt before after o :: journal) =
      interrupts journal ++ [(before, after)] := by
  have hsome : Entry.interrupt? (.ended .interrupt before after o : Entry δ) =
      some (before, after) := rfl
  unfold interrupts
  rw [List.filterMap_cons_some hsome, List.reverse_cons]

def Operation.isInterrupt : Operation δ → Bool
  | interrupt => true
  | _ => false

theorem interrupts_ended {op : Operation δ} (h : op.isInterrupt = false) (before after : Driver)
    (o : Outcome Cause Unit) (journal : List (Entry δ)) :
    interrupts (.ended op before after o :: journal) = interrupts journal := by
  unfold interrupts
  rw [List.filterMap_cons_none]
  cases op with
  | interrupt => cases h
  | _ => rfl

theorem readouts_ended (op : Operation δ) {before after : Driver} (o : Outcome Cause Unit)
    {journal : List (Entry δ)} {k : Nat}
    (hle : before.fifo.board.readouts ≤ after.fifo.board.readouts)
    (h : before.fifo.board.readouts = k + readouts journal) :
    after.fifo.board.readouts = k + readouts (.ended op before after o :: journal) := by
  have hsum : readouts (.ended op before after o :: journal) =
      (after.fifo.board.readouts - before.fifo.board.readouts) + readouts journal := rfl
  omega

/-! ## Operations during a capture -/

namespace Scene

/-- A call on a scene with an armed driver does so too, and ends no operation of its own. -/
def busy : Contract (Scene δ) where
  inv s := Driver.busy.inv s.driver
  allows s t := Driver.busy.allows s.driver t.driver ∧
    ∃ ds : List Driver, t.journal = ds.map Entry.passed ++ s.journal
  refl s := ⟨Driver.busy.refl s.driver, [], rfl⟩
  trans h h' := by
    obtain ⟨hd, ds, hj⟩ := h
    obtain ⟨hd', ds', hj'⟩ := h'
    refine ⟨Driver.busy.trans hd hd', ds' ++ ds, ?_⟩
    rw [hj', hj, List.map_append, List.append_assoc]

theorem busy_admits : Admits Board.Rules.growing Driver.busy (busy : Contract (Scene δ)) where
  free := Board.Rules.free_growing
  disturb x := .update fun b _ =>
    ⟨trivial, Nat.le_of_eq (congrArg (List.countP Event.readsFifo) (x.record_eq b).symm)⟩
  board := Driver.onBoard_busy
  watermark := Driver.setWatermark_busy
  driver ha := .within ha (fun _ hs => hs) fun _ d _ hd hallowed => ⟨hd, hallowed, [d], rfl⟩
  sink _ _ s hs := ⟨hs, busy.refl s⟩

/-- A capture during a capture is refused. -/
theorem captureOn_busy (interrupts : Interrupts (Scene δ)) :
    (Driver.captureOn driverPart interrupts).Obeys busy := by
  intro s hs
  rw [captureOn_error interrupts (Driver.beginCapture_armed hs.2)]
  exact ⟨rfl, hs, Driver.busy.refl s.driver, [s.driver], rfl⟩

end Scene

/-- During a capture no operation but the interrupt touches the completion or the buffers. -/
theorem Operation.call_busy [Sink δ] (op : Operation δ) (h : op.isInterrupt = false) :
    op.call.Obeys Scene.busy := by
  have hcapture := fun a b : List (Operation δ) =>
    Scene.captureOn_busy ⟨fun s => runAll a s, fun s => runAll b s⟩
  cases op with
  | disturb x => exact Scene.busy_admits.onBoard (Scene.busy_admits (δ := δ).disturb x)
  | changeSink i f => exact Scene.busy_admits.grants.changeSink i f
  | converter s => exact Scene.busy_admits.onBoard (s.run_obeys Board.Rules.free_growing)
  | interrupt => cases h
  | capture a b => exact hcapture a b
  | submit n i a b =>
    have hresize := Scene.busy_admits (δ := δ).driver (Driver.setWatermark_busy n)
    exact Scene.busy_admits.grants.submitOn i n hresize (hcapture a b)
  | setWatermark n => exact Scene.busy_admits.driver (Driver.setWatermark_busy n)
  | setTimeout polls => exact Scene.busy_admits.driver (Driver.setCaptureTimeout_busy polls)
  | showAttribute i room a b =>
    exact .bind (Scene.busy_admits.grants.showAttributeOn i room (hcapture a b)) fun _ => .pure ()
  | storeAttribute i input =>
    exact Scene.busy_admits.driver (Scene.busy_admits (δ := δ).storeAttribute i input)
  | readDocumented a =>
    exact .bind (Scene.busy_admits.onBoard (Board.Rules.growing.readDocumented a)) fun _ => .pure ()
  | writeDocumented a v =>
    exact Scene.busy_admits.onBoard (Board.Rules.growing.writeDocumented a v trivial trivial)

/-! ## The run of a capture -/

namespace Scene

theorem interrupts_pass (s : Scene δ) (d : Driver) :
    interrupts (s.pass d).journal = interrupts s.journal := interrupts_passed [d] s.journal

theorem readouts_pass (s : Scene δ) (d : Driver) :
    readouts (s.pass d).journal = readouts s.journal := readouts_passed [d] s.journal

/-- A scene during a capture with these buffers, before which there had been `k` readouts. -/
structure Phase (b : Buffers) (k : Nat) (s : Scene δ) : Prop where
  sound : s.driver.Sound
  armed : s.driver.capture = .armed
  counted : s.driver.fifo.board.readouts = k + readouts s.journal
  progress : Driver.Progress b (interrupts s.journal) s.driver

variable {b : Buffers} {k : Nat} {s : Scene δ}

/-- The driver with another board on which nothing more was read out. -/
theorem Phase.pass (h : Phase b k s) {c : Board} (hc : c.readouts = s.driver.fifo.board.readouts) :
    Phase b k (s.pass (s.driver.withBoard c)) where
  sound := h.sound.withBoard c
  armed := h.armed
  counted := by
    rw [readouts_pass]
    exact hc.trans h.counted
  progress := by
    rw [interrupts_pass]
    exact h.progress.alike rfl rfl

theorem Phase.waiting (h : Phase b k s) : Phase b k s.waiting :=
  (h.pass (Board.readouts_noted .captureArmed s.driver.fifo.board)).pass rfl

variable [Sink δ]

theorem call_interrupt (h : s.driver.Sound) :
    (Operation.interrupt : Operation δ).call s = (.ok (), s.pass s.driver.interrupted) := by
  have hin : Action.within driverPart Driver.onInterrupt s =
      (.ok (), s.pass s.driver.interrupted) := Action.within_eq s (Driver.onInterrupt_eq h)
  unfold Operation.call Action.mapError
  rw [hin]
  rfl

/-- One operation during a capture carries it on, and a result that is there stays. -/
theorem Phase.step (h : Phase b k s) (op : Operation δ) :
    Phase b k (Scene.note op s.driver (op.call s)) ∧
      (s.driver.completion.done = true →
        (Scene.note op s.driver (op.call s)).driver.completion = s.driver.completion) := by
  cases hi : op.isInterrupt with
  | true =>
    have hop : op = .interrupt := by
      cases op with
      | interrupt => rfl
      | _ => cases hi
    subst hop
    rw [call_interrupt h.sound]
    refine ⟨⟨h.sound.interrupted, (Driver.capture_interrupted _).trans h.armed, ?_, ?_⟩, ?_⟩
    · refine readouts_ended _ _ (h.progress.readouts_le h.sound) ?_
      rw [readouts_pass]
      exact h.counted
    · refine (interrupts_interrupt s.driver s.driver.interrupted (.ok ()) _).symm ▸ ?_
      exact h.progress.interrupt h.sound h.armed
    · exact fun hdone =>
        (Driver.interrupted_quiet (.inr (Driver.awaits_of_done hdone))).completion
  | false =>
    have hbusy := op.call_busy hi s ⟨h.sound, h.armed⟩
    rcases hcall : op.call s with ⟨o, t⟩
    rw [hcall] at hbusy
    obtain ⟨-, ⟨hsound, harmed⟩, ⟨hcompletion, hbuffers, hle⟩, ds, hj⟩ := hbusy
    refine ⟨⟨hsound, harmed, ?_, ?_⟩, fun _ => hcompletion⟩
    · refine readouts_ended _ _ hle ?_
      rw [hj, readouts_passed]
      exact h.counted
    · refine (interrupts_ended hi s.driver t.driver o t.journal).symm ▸ ?_
      rw [hj, interrupts_passed]
      exact h.progress.alike hcompletion hbuffers

/-- Any operations during a capture carry it on, and a result that is there stays. -/
theorem Phase.runAll (ops : List (Operation δ)) {s : Scene δ} (h : Phase b k s) :
    Phase b k (Operation.runAll ops s) ∧
      (s.driver.completion.done = true →
        (Operation.runAll ops s).driver.completion = s.driver.completion) := by
  induction ops generalizing s with
  | nil => exact ⟨h, fun _ => rfl⟩
  | cons op rest ih =>
    obtain ⟨hstep, hstays⟩ := h.step op
    obtain ⟨hrest, hstays'⟩ := ih hstep
    refine ⟨hrest, fun hd => ?_⟩
    have hd' := hstays hd
    exact (hstays' (hd' ▸ hd)).trans hd'

/-- The driver after the last entry of a journal. -/
def latest? (s : Scene δ) : Option Driver := s.journal.head?.map Entry.latest

theorem latest?_runAll (ops : List (Operation δ)) {s : Scene δ} (h : s.latest? = some s.driver) :
    (Operation.runAll ops s).latest? = some (Operation.runAll ops s).driver := by
  induction ops generalizing s with
  | nil => exact h
  | cons op rest ih => exact ih rfl

end Scene

/-! ## The end of a capture -/

namespace Driver

/-- A result that is there when a capture closes is what the capture comes back with, whenever
it came. -/
theorem endCapture_published {u : Driver} {c : Completion (Except Cause Unit)}
    {r : Except Cause Unit} (hu : u.Sound) (harmed : u.capture = .armed)
    (hstays : c.done = true → u.completion = c) (hr : u.completion.result? = some r)
    (polls : UInt32) : endCapture polls c.waited u = u.close r := by
  cases hc : c.result? with
  | some v =>
    have hsame := hstays (Completion.done_of_result? hc).1
    have hv : v = r := by
      rw [hsame, hc] at hr
      exact Option.some.inj hr
    have hwaited : c.waited = .ok r := by
      unfold Completion.waited
      rw [hc, hv]
    rw [hwaited, endCapture_result]
  | none =>
    have hwaited : c.waited = .error {} := by
      unfold Completion.waited
      rw [hc]
    obtain ⟨hdone, hslot⟩ := Completion.done_of_result? hr
    rw [hwaited, endCapture_late (lateResult_done (hu.signed harmed) hdone hslot polls)]

/-- Without a result a capture times out. -/
theorem endCapture_open {u : Driver} {c : Completion (Except Cause Unit)}
    (hstays : c.done = true → u.completion = c) (hopen : u.completion.done = false)
    (polls : UInt32) :
    endCapture polls c.waited u = (u.abandoned polls).close (.error .timeout) := by
  have hc : c.result? = none := by
    cases hr : c.result? with
    | none => rfl
    | some v =>
      have hdone := (Completion.done_of_result? hr).1
      rw [hstays hdone, hdone] at hopen
      cases hopen
  have hwaited : c.waited = .error {} := by
    unfold Completion.waited
    rw [hc]
  rw [hwaited, endCapture_late (lateResult_open hopen polls)]

/-- A driver with no capture pending, and buffers for `w` samples. -/
structure AtRest (w : Nat) (d : Driver) : Prop where
  idle : d.capture = .idle
  unsigned : d.completion.signed = false
  sized : d.fifo.buffers.isSome = true
  watermark : d.watermark = w

theorem watermark_of_buffers {d : Driver} {b : Buffers} (h : d.fifo.buffers = some b) :
    d.watermark = b.watermark := by
  unfold watermark Fifo.watermark
  rw [h]
  rfl

theorem Progress.watermark {b : Buffers} {l : List (Driver × Driver)} {y : Driver}
    (h : Progress b l y) : y.fifo.buffers.isSome = true ∧ y.watermark = b.watermark := by
  have hwords : ∀ raw, (Buffers.mk raw (Sample.words raw b.watermark)).watermark = b.watermark :=
    fun _ => Array.size_ofFn
  have hsome : ∀ b', y.fifo.buffers = some b' → b'.watermark = b.watermark →
      y.fifo.buffers.isSome = true ∧ y.watermark = b.watermark := fun b' hb' hw =>
    ⟨Option.isSome_iff_exists.mpr ⟨b', hb'⟩, (watermark_of_buffers hb').trans hw⟩
  cases h with
  | waiting _ _ hb => exact hsome b hb rfl
  | published _ _ _ _ hp =>
    cases hp with
    | read _ _ _ hb => exact hsome _ hb (hwords _)
    | failed _ _ hb => exact hsome b hb rfl

theorem samples_of_buffers {x y : Driver} (h : y.fifo.buffers = x.fifo.buffers) :
    y.samples = x.samples := by
  unfold samples Fifo.samples
  rw [h]

end Driver

namespace Scene

open Driver (Quiet AtRest)

/-- How a capture of the driver `d` that saw these interrupts ends, in the scene `t`. Of every
interrupt the driver before it and the driver after it are given. -/
inductive CaptureEnds (d : Driver) (t : Scene δ) :
    List (Driver × Driver) → Outcome Cause Unit → Prop where
  /-- The FIFO could not be armed. -/
  | unarmed {f : BusFault}
      (harm : (Converter.setFifoMode .immediateTrigger d.fifo.board).1 = .error (.bus f))
      (hsamples : t.driver.samples = d.samples) : CaptureEnds d t [] (.error (.bus f))
  /-- No interrupt found the FIFO full, nothing was read, and the FIFO was turned off. -/
  | timedOut {l : List (Driver × Driver)} {u : Driver} {rest : List (Entry δ)} {polls : UInt32}
      (harm : (Converter.setFifoMode .immediateTrigger d.fifo.board).1 = .ok ())
      (hquiet : ∀ z ∈ l, ¬ z.1.full ∧ Quiet z.1 z.2)
      (hsamples : t.driver.samples = d.samples)
      (hjournal : t.journal = .passed t.driver :: rest)
      (hlast : rest.head?.map Entry.latest = some u)
      (hoff : t.driver.fifo.board =
        (u.fifo.board.noted (.captureTimedOut polls)).switchedOff .abandonFailed) :
      CaptureEnds d t l (.error .timeout)
  /-- The first interrupt that found the FIFO full read it. -/
  | captured {early later : List (Driver × Driver)} {x x' : Driver} {raw : Array UInt8}
      (harm : (Converter.setFifoMode .immediateTrigger d.fifo.board).1 = .ok ())
      (hearly : ∀ z ∈ early, ¬ z.1.full ∧ Quiet z.1 z.2) (hfull : x.full)
      (honce : x'.fifo.board.readouts = x.fifo.board.readouts + 1)
      (hlater : ∀ z ∈ later, Quiet z.1 z.2) (hread : x.readout = .ok raw)
      (hsamples : Sample.decode raw d.watermark = (.ok t.driver.samples : Outcome Cause _)) :
      CaptureEnds d t (early ++ (x, x') :: later) (.ok ())
  /-- The first interrupt that found the FIFO full failed to read it. -/
  | failed {early later : List (Driver × Driver)} {x x' : Driver} {f : BusFault}
      (harm : (Converter.setFifoMode .immediateTrigger d.fifo.board).1 = .ok ())
      (hearly : ∀ z ∈ early, ¬ z.1.full ∧ Quiet z.1 z.2) (hfull : x.full)
      (honce : x'.fifo.board.readouts = x.fifo.board.readouts + 1)
      (hlater : ∀ z ∈ later, Quiet z.1 z.2) (hread : x.readout = .error (.bus f))
      (hsamples : t.driver.samples = d.samples) :
      CaptureEnds d t (early ++ (x, x') :: later) (.error (.bus f))

variable {b : Buffers} {s : Scene δ}

/-- A capture that was armed, in a scene that has seen no operation yet. -/
theorem phase_begun (h : s.driver.Sound) (hb : s.driver.fifo.buffers = some b) {ds : List Driver}
    (hj : s.journal = ds.map Entry.passed) {c : Board}
    (hm : Converter.setFifoMode .immediateTrigger s.driver.fifo.board = (.ok (), c)) :
    Phase b s.driver.fifo.board.readouts (s.pass (s.driver.begun c)) := by
  have hquiet := Board.readouts_setFifoMode .immediateTrigger s.driver.fifo.board
  rw [hm] at hquiet
  have hpassed : (s.pass (s.driver.begun c)).journal =
      (s.driver.begun c :: ds).map Entry.passed ++ [] := by
    rw [List.append_nil, List.map_cons, ← hj]
    rfl
  exact {
    sound := h.begun (by rw [hb]; rfl) c
    armed := rfl
    counted := by
      rw [hpassed, readouts_passed]
      exact hquiet
    progress := by
      rw [hpassed, interrupts_passed]
      exact .waiting (fun _ hz => nomatch hz) rfl hb }

/-- The end of a capture, from where it stands when its closing section begins. -/
theorem Phase.ends {d : Driver} {k : Nat} {u : Scene δ} {c : Completion (Except Cause Unit)}
    (h : Phase b k u) (hb : d.fifo.buffers = some b) (hshaped : b.Shaped)
    (harm : (Converter.setFifoMode .immediateTrigger d.fifo.board).1 = .ok ())
    (hlatest : u.latest? = some u.driver) (hstays : c.done = true → u.driver.completion = c)
    (polls : UInt32) :
    let x := u.ended (Driver.endCapture polls c.waited u.driver)
    CaptureEnds d x.2 (interrupts x.2.journal) x.1 ∧ AtRest b.watermark x.2.driver ∧
      x.2.driver.fifo.board.readouts = k + readouts x.2.journal := by
  obtain ⟨hsized, hwatermark⟩ := h.progress.watermark
  have hcount : ∀ e : Driver, e.fifo.board.readouts = u.driver.fifo.board.readouts →
      e.fifo.board.readouts = k + readouts (u.pass e).journal := by
    intro e he
    rw [readouts_pass]
    exact he.trans h.counted
  have hpassed := interrupts_pass u
  have hw := Driver.watermark_of_buffers hb
  have hp := h.progress
  generalize hl : interrupts u.journal = l at hp hpassed
  cases hp with
  | waiting hquiet hdone hub =>
    rw [Driver.endCapture_open hstays hdone]
    dsimp only [ended]
    rw [hpassed]
    refine ⟨?_, ⟨rfl, rfl, hsized, hwatermark⟩, hcount _ ?_⟩
    · exact .timedOut harm hquiet (Driver.samples_of_buffers (hub.trans hb.symm)) rfl hlatest rfl
    · exact (Board.readouts_switchedOff _ _).trans (Board.readouts_noted _ _)
  | published hearly hfull honce hlater hpub =>
    cases hpub with
    | @read raw hread hsize hslot hub =>
      rw [Driver.endCapture_published h.sound h.armed hstays hslot]
      dsimp only [ended]
      rw [hpassed]
      refine ⟨?_, ⟨rfl, rfl, hsized, hwatermark⟩, hcount _ (Board.readouts_noted _ _)⟩
      refine .captured harm hearly hfull honce hlater hread ?_
      have hlong : Sample.streamLength d.watermark ≤ raw.size :=
        Nat.le_of_eq (by rw [hw, hsize, hshaped.rawSize_eq])
      have hsamples : u.driver.samples = Sample.words raw d.watermark := by
        unfold Driver.samples Fifo.samples
        rw [hub, hw]
        rfl
      exact (Sample.decode_eq hlong).trans (congrArg Outcome.ok hsamples.symm)
    | failed hread hslot hub =>
      rw [Driver.endCapture_published h.sound h.armed hstays hslot]
      dsimp only [ended]
      rw [hpassed]
      refine ⟨?_, ⟨rfl, rfl, hsized, hwatermark⟩, hcount _ rfl⟩
      exact .failed harm hearly hfull honce hlater hread
        (Driver.samples_of_buffers (hub.trans hb.symm))

variable [Sink δ]

/-- A capture whose arming succeeds: the scene `t` when its wait begins, and the scene `u` when its
closing section does. -/
theorem captureOn_armed (h : s.driver.Sound) (hidle : s.driver.capture = .idle)
    (hb : s.driver.fifo.buffers = some b) {ds : List Driver}
    (hj : s.journal = ds.map Entry.passed) {c : Board}
    (hm : Converter.setFifoMode .immediateTrigger s.driver.fifo.board = (.ok (), c))
    (afterArm afterWait : List (Operation δ)) {t u : Scene δ}
    (ht : Operation.runAll afterArm (s.pass (s.driver.begun c)) = t)
    (hu : Operation.runAll afterWait t.waiting = u) :
    Phase b s.driver.fifo.board.readouts t ∧ Phase b s.driver.fifo.board.readouts u ∧
      (t.driver.completion.done = true → u.driver.completion = t.driver.completion) ∧
      Driver.captureOn driverPart (Operation.during afterArm afterWait) s =
        u.ended
          (Driver.endCapture t.driver.captureTimeout t.driver.completion.waited u.driver) := by
  have hbegin : Driver.beginCapture s.driver = (.ok (), s.driver.begun c) :=
    Driver.beginCapture_begun hidle (by rw [hb]; rfl) hm
  have hp := ((phase_begun h hb hj hm).runAll afterArm).1
  have hrun := captureOn_begun (Operation.during afterArm afterWait) hbegin
    (hp.sound.signed hp.armed)
  dsimp only at hrun
  rw [ht] at hp hrun
  obtain ⟨hpu, hstays⟩ := hp.waiting.runAll afterWait
  rw [hu] at hpu hstays hrun
  exact ⟨hp, hpu, hstays, hrun⟩

/-- A capture of a sound driver that is idle and has buffers, in a scene that has seen no operation
yet, with any operations at its two interrupt points. -/
theorem captureOn_closes (h : s.driver.Sound) (hidle : s.driver.capture = .idle)
    (hsized : s.driver.fifo.buffers.isSome = true) {ds : List Driver}
    (hj : s.journal = ds.map Entry.passed) (afterArm afterWait : List (Operation δ)) :
    let x := Driver.captureOn driverPart (Operation.during afterArm afterWait) s
    CaptureEnds s.driver x.2 (interrupts x.2.journal) x.1 ∧ AtRest s.driver.watermark x.2.driver ∧
      x.2.driver.fifo.board.readouts = s.driver.fifo.board.readouts + readouts x.2.journal := by
  obtain ⟨b, hb⟩ := Option.isSome_iff_exists.mp hsized
  rcases Converter.setFifoMode_ends .immediateTrigger s.driver.fifo.board
    with ⟨c, hm⟩ | ⟨f, c, hm⟩
  · obtain ⟨-, hu, hstays, hrun⟩ := captureOn_armed h hidle hb hj hm afterArm afterWait rfl rfl
    rw [hrun, Driver.watermark_of_buffers hb]
    exact hu.ends hb (h.shaped b hb) (congrArg Prod.fst hm) (latest?_runAll afterWait rfl)
      hstays _
  · have hquiet := Board.readouts_setFifoMode .immediateTrigger s.driver.fifo.board
    rw [hm] at hquiet
    have hbegin : Driver.beginCapture s.driver = (.error (.bus f), s.driver.refused c) :=
      Driver.beginCapture_refused hidle hsized hm
    have hnone : interrupts s.journal = [] ∧ readouts s.journal = 0 := by
      rw [hj, ← List.append_nil (ds.map Entry.passed), interrupts_passed, readouts_passed]
      exact ⟨rfl, rfl⟩
    rw [captureOn_error _ hbegin]
    dsimp only
    rw [interrupts_pass, readouts_pass, hnone.1, hnone.2]
    exact ⟨.unarmed (congrArg Prod.fst hm) rfl, ⟨rfl, rfl, hsized, rfl⟩, hquiet⟩

theorem captureOn_sound {d : Driver} (h : d.Sound) (hidle : d.capture = .idle)
    (hsized : d.fifo.buffers.isSome = true) (sinks : Nat → δ)
    (afterArm afterWait : List (Operation δ)) :
    let x := Driver.captureOn driverPart (Operation.during afterArm afterWait) (start d sinks)
    CaptureEnds d x.2 (interrupts x.2.journal) x.1 ∧ AtRest d.watermark x.2.driver ∧
      x.2.driver.fifo.board.readouts = d.fifo.board.readouts + readouts x.2.journal := by
  have hj : (start d sinks).journal = [d].map Entry.passed := rfl
  exact captureOn_closes h hidle hsized hj afterArm afterWait

/-- A capture of any driver that some run leaves idle with buffers, with any timeout, on a board
on which anything can fail, and with any operations at its two interrupt points, ends as
`CaptureEnds` says. No readout is made but those of the operations, and the driver is at rest
again with the watermark it had. -/
theorem captureOn_ends {d : Driver} (h : d.Reachable) (hidle : d.capture = .idle)
    (hsized : d.fifo.buffers.isSome = true) (polls : UInt32) (c : Board) (sinks : Nat → δ)
    (afterArm afterWait : List (Operation δ)) :
    let e := (d.withBoard c).setCaptureTimeout polls
    let x := Driver.captureOn driverPart
      ⟨fun s => Operation.runAll afterArm s, fun s => Operation.runAll afterWait s⟩ (start e sinks)
    CaptureEnds e x.2 (interrupts x.2.journal) x.1 ∧ AtRest d.watermark x.2.driver ∧
      x.2.driver.fifo.board.readouts = c.readouts + readouts x.2.journal := by
  have hboard := h.sound.withBoard c
  have hsound : ((d.withBoard c).setCaptureTimeout polls).Sound :=
    ⟨hboard.live, hboard.shaped, hboard.sized, hboard.signed, hboard.unsigned, hboard.stored⟩
  exact captureOn_sound hsound hidle hsized sinks afterArm afterWait

/-- A capture that an interrupt reads out, and whose second interrupt comes after the wait. -/
theorem captureOn_ends_twice :
    ∃ d, (Driver.init { watermark := 2 } (Board.probed [])).1 = .ok d ∧
      let e := (d.withBoard (Board.probed [1, 2])).setCaptureTimeout 0
      let x := Driver.captureOn driverPart
        ⟨fun s => Operation.runAll [.interrupt] s, fun s => Operation.runAll [.interrupt] s⟩
        (start e fun _ => ({ capacity := 0 } : Store))
      (CaptureEnds e x.2 (interrupts x.2.journal) x.1 ∧ AtRest d.watermark x.2.driver ∧
        x.2.driver.fifo.board.readouts =
          (Board.probed [1, 2]).readouts + readouts x.2.journal) ∧
      x.1 = .ok () ∧ x.2.driver.samples = #[1, 2] := by
  have hrun : ((Driver.init { watermark := 2 } (Board.probed [])).1.map fun d =>
      let e := (d.withBoard (Board.probed [1, 2])).setCaptureTimeout 0
      let x := Driver.captureOn driverPart
        ⟨fun s => Operation.runAll [.interrupt] s, fun s => Operation.runAll [.interrupt] s⟩
        (start e fun _ => ({ capacity := 0 } : Store))
      (d.capture, d.fifo.buffers.isSome, x.1, x.2.driver.samples)) =
        .ok (.idle, true, .ok (), #[1, 2]) := by decide +kernel
  obtain ⟨d, hinit, hrun⟩ := Outcome.of_map_ok hrun
  obtain ⟨hidle, hrun⟩ := Prod.mk.inj hrun
  obtain ⟨hsized, hrun⟩ := Prod.mk.inj hrun
  have hd : d.Reachable := ⟨Store, inferInstance, _, _, d, fun _ => { capacity := 0 }, [], hinit,
    List.mem_singleton.mpr rfl⟩
  exact ⟨d, hinit, captureOn_ends hd hidle hsized 0 _ _ _ _, Prod.mk.inj hrun⟩

end Scene

end AdcCapture
