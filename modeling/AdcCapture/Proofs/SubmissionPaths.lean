/-
  The two ways of a submission. One whose number of samples is the watermark already goes on to the
  capture at once; any other one changes the watermark first, which turns the FIFO off, replaces the
  buffers and writes the two registers. Where both could be taken they end alike
  (`Scene.submitOn_skips`): the registers hold the bytes that the change would write
  (`Fifo.Programmed`), arming sets the FIFO mode whatever it was, and the buffers are the same once
  the FIFO was read. Until then nothing that a capture does can tell the two drivers apart
  (`Driver.Alike`).
-/
import AdcCapture.Proofs.BlockDelivery
import AdcCapture.Proofs.Submission
import AdcCapture.Proofs.WatermarkAgreement

namespace AdcCapture

/-! ## A watermark that is programmed already -/

namespace Chip

theorem write_get (a : UInt16) (k : Chip) : k.write a (k.registers.get a) = k :=
  congrArg (fun r => { k with registers := r }) (RegisterFile.set_get _ _)

/-- Bytes that are there already are programmed without effect. -/
theorem setWide_of_bytes {f : WideField} {v : UInt16} {k : Chip}
    (hlow : k.registers.get f.low = f.lowByte v) (hhigh : k.registers.get f.high = f.highByte v) :
    k.setWide f v = k := by
  unfold setWide
  rw [← hlow, ← hhigh, write_get, write_get]

end Chip

/-- A change of the watermark to what it is already leaves of the registers only the FIFO mode for
the arming to make up for. -/
theorem Fifo.Programmed.armed {f : Fifo} (h : f.Programmed) (hsized : f.buffers.isSome = true) :
    ((f.board.chip.setMode .disabled).setWide .watermark (UInt16.ofNat f.watermark)).setMode
      .immediateTrigger = f.board.chip.setMode .immediateTrigger := by
  obtain ⟨hlow, hhigh⟩ := h hsized
  have hsame := Chip.sameWatermark_setMode .disabled f.board.chip
  rw [Chip.setWide_of_bytes (hsame.low.trans hlow) (hsame.high.trans hhigh), Chip.setMode_setMode]

/-- In every run in which nothing foreign changes the registers of the watermark they hold, while
there are buffers, what the driver has programmed. -/
theorem Operation.run_programmed {δ : Type} [Sink δ] {c : Config} {b : Board} {d : Driver}
    (h : (Driver.init c b).1 = .ok d) (sinks : Nat → δ) (ops : List (Operation δ))
    (hspares : Driver.SparesWatermark (runAll ops (Scene.start d sinks)).journal) :
    ∀ e ∈ (runAll ops (Scene.start d sinks)).journal, ∀ x ∈ e.drivers, x.fifo.Programmed := by
  have hP : Fifo.Programs fun low high w => low = WideField.watermark.lowByte (UInt16.ofNat w) ∧
      high = WideField.watermark.highByte (UInt16.ofNat w) := fun _ _ => ⟨rfl, rfl⟩
  exact (run_traced h sinks ops).invariant (P := fun x => x.fifo.Programmed)
    ((Driver.init_started h).relates hP)
    fun x y hx hpassage => (hpassage.effect hx).relates hP hspares hx

/-! ## Two captures side by side -/

/-- The end of all failures. -/
def Disturbance.mended : Disturbance where
  change b := { b with faults := {}, allocator := default }
  record_eq _ := rfl

namespace Driver

variable {x y : Driver}

/-- Two drivers in a capture. The counts and the records of their boards may differ, and so may what
is in their buffers, until it is read over. -/
structure Alike (x y : Driver) : Prop where
  healthy : x.fifo.board.Healthy ∧ y.fifo.board.Healthy
  chip : y.fifo.board.chip = x.fifo.board.chip
  completion : y.completion = x.completion
  watermark : y.watermark = x.watermark
  read : x.completion.done = true →
    x.completion.result? = some (.ok ()) ∧ y.fifo.buffers = x.fifo.buffers

/-- The interrupt that a capture waits for reads the FIFO. What the driver has then depends on the
FIFO and on the watermark, and on nothing else that was there before. -/
theorem interrupted_reads (h : x.Sound) (hhealthy : x.fifo.board.Healthy)
    (harmed : x.capture = .armed) (hopen : x.completion.done = false) (hfull : x.full) :
    let raw := x.fifo.board.served (Sample.streamLength x.watermark)
    x.interrupted.completion = { signed := true, done := true, slot := some (.ok ()) } ∧
      x.interrupted.fifo.buffers = some ⟨raw, Sample.words raw x.watermark⟩ := by
  obtain ⟨b, hb⟩ := Option.isSome_iff_exists.mp (h.sized harmed)
  have hsigned := h.interrupted.signed ((capture_interrupted x).trans harmed)
  have hread := readout_healthy hhealthy
  have hsize : x.fifo.rawSize = Sample.streamLength x.watermark := by
    have hraw : x.fifo.rawSize = b.rawSize := congrArg (fun x => x.elim 0 Buffers.rawSize) hb
    rw [hraw, (h.shaped b hb).rawSize_eq, watermark_of_buffers hb]
  obtain ⟨hpublished, -⟩ := interrupted_published h hfull (awaits_iff.mpr ⟨harmed, hopen⟩) hb
  cases hpublished with
  | failed hfailed _ _ => exact nomatch hread.symm.trans hfailed
  | read hraw _ hslot hbuffers =>
    obtain ⟨hdone, hstored⟩ := Completion.done_of_result? hslot
    cases Outcome.ok.inj (hread.symm.trans hraw)
    rw [hsize, ← watermark_of_buffers hb] at hbuffers
    refine ⟨?_, hbuffers⟩
    generalize x.interrupted.completion = c at hsigned hdone hstored
    obtain ⟨signed, done, slot⟩ := c
    cases hsigned
    cases hdone
    cases hstored
    rfl

namespace Alike

theorem full_iff (h : Alike x y) : y.full ↔ x.full := by
  rw [full_healthy h.healthy.1, full_healthy h.healthy.2, h.chip]

/-- An interrupt cannot tell them apart. -/
theorem interrupted (h : Alike x y) (hx : x.Sound) (hy : y.Sound) (hxarmed : x.capture = .armed)
    (hyarmed : y.capture = .armed) : Alike x.interrupted y.interrupted := by
  obtain ⟨hxh, hyh⟩ := h.healthy
  obtain ⟨hxhealthy, hxfull, hxempty⟩ := interrupted_healthy hx hxh
  obtain ⟨hyhealthy, hyfull, hyempty⟩ := interrupted_healthy hy hyh
  have hchip : y.interrupted.fifo.board.chip = x.interrupted.fifo.board.chip := by
    by_cases hf : x.full
    · rw [hxfull hf, hyfull (h.full_iff.mpr hf), h.chip]
    · rw [hxempty hf, hyempty (mt h.full_iff.mp hf), h.chip]
  have hwatermark : y.interrupted.watermark = x.interrupted.watermark := by
    rw [(interrupted_sized hx).2, (interrupted_sized hy).2, h.watermark]
  by_cases hreads : x.full ∧ x.completion.done = false
  · obtain ⟨hf, hopen⟩ := hreads
    have hopen' : y.completion.done = false := h.completion ▸ hopen
    obtain ⟨hxc, hxb⟩ := interrupted_reads hx hxh hxarmed hopen hf
    obtain ⟨hyc, hyb⟩ := interrupted_reads hy hyh hyarmed hopen' (h.full_iff.mpr hf)
    have hserved : ∀ n, y.fifo.board.served n = x.fifo.board.served n := by
      have hfifo : y.fifo.board.fifo = x.fifo.board.fifo := congrArg Chip.fifo h.chip
      unfold Board.served
      rw [hfifo]
      exact fun _ => rfl
    refine ⟨⟨hxhealthy, hyhealthy⟩, hchip, hyc.trans hxc.symm, hwatermark, fun _ => ⟨?_, ?_⟩⟩
    · rw [hxc]
      rfl
    · rw [hxb, hyb, h.watermark, hserved]
  · -- Nothing is read: the completions and the buffers stay what they are.
    have hquiet : ∀ {z : Driver}, ¬ (z.full ∧ z.completion.done = false) →
        Quiet z z.interrupted := by
      intro z hz
      refine interrupted_quiet ?_
      by_cases hf : z.full
      · exact .inr (awaits_of_done (Bool.not_eq_false _ ▸ fun hd => hz ⟨hf, hd⟩))
      · exact .inl hf
    have hqx := hquiet hreads
    have hqy : Quiet y y.interrupted := hquiet (by rw [h.full_iff, h.completion]; exact hreads)
    refine ⟨⟨hxhealthy, hyhealthy⟩, hchip, ?_, hwatermark, fun hdone => ?_⟩
    · rw [hqx.completion, hqy.completion, h.completion]
    · rw [hqx.completion, hqx.buffers, hqy.buffers]
      exact h.read (hqx.completion ▸ hdone)

/-- A change of the converter cannot either. -/
theorem onChip (h : Alike x y) (g : Chip → Chip) :
    Alike (x.withBoard ((Disturbance.onChip g).change x.fifo.board))
      (y.withBoard ((Disturbance.onChip g).change y.fifo.board)) where
  healthy := ⟨h.healthy.1.changed g, h.healthy.2.changed g⟩
  chip := congrArg g h.chip
  completion := h.completion
  watermark := h.watermark
  read := h.read

theorem noted (h : Alike x y) (m : Message) :
    Alike (x.withBoard (x.fifo.board.noted m)) (y.withBoard (y.fifo.board.noted m)) where
  healthy := ⟨h.healthy.1.noted _, h.healthy.2.noted _⟩
  chip := h.chip
  completion := h.completion
  watermark := h.watermark
  read := h.read

end Alike

end Driver

namespace Scene

variable {δ : Type} {s t : Scene δ}

/-- Two scenes with drivers that are alike, among the same sinks. -/
structure Alike (s t : Scene δ) : Prop where
  driver : Driver.Alike s.driver t.driver
  sinks : t.sinks = s.sinks

theorem Alike.waiting (h : Alike s t) : Alike s.waiting t.waiting :=
  ⟨h.driver.noted .captureArmed, h.sinks⟩

section Runs

variable [Sink δ] {b b' : Buffers} {k k' : Nat}

theorem Alike.step (h : Alike s t) (hs : Phase b k s) (ht : Phase b' k' t) (x : Signal) :
    Alike (Scene.note x.operation s.driver ((x.operation : Operation δ).call s))
      (Scene.note x.operation t.driver ((x.operation : Operation δ).call t)) := by
  cases x with
  | interrupt =>
    rw [show Signal.interrupt.operation = Operation.interrupt from rfl, call_interrupt hs.sound,
      call_interrupt ht.sound]
    exact ⟨h.driver.interrupted hs.sound ht.sound hs.armed ht.armed, h.sinks⟩
  | change g => exact ⟨h.driver.onChip g, h.sinks⟩

theorem Alike.runAll (xs : List Signal) {s t : Scene δ} (h : Alike s t) (hs : Phase b k s)
    (ht : Phase b' k' t) :
    Alike (Operation.runAll (xs.map Signal.operation) s)
      (Operation.runAll (xs.map Signal.operation) t) := by
  induction xs generalizing s t with
  | nil => exact h
  | cons x rest ih =>
    exact ih (h.step hs ht x) (hs.step x.operation).1 (ht.step x.operation).1

end Runs

/-! ## Their ends -/

/-- Two scenes in which nothing is left of how they came about but counts and records. -/
structure Level (s t : Scene δ) : Prop where
  chip : t.driver.fifo.board.chip = s.driver.fifo.board.chip
  buffers : t.driver.fifo.buffers = s.driver.fifo.buffers
  capture : t.driver.capture = s.driver.capture
  sinks : t.sinks = s.sinks

/-- Notes may be added on both sides. -/
theorem Level.noted {u v : Scene δ} (h : Level s t) (hs : Noted s u) (ht : Noted t v)
    (hsinks : v.sinks = u.sinks) : Level u v := by
  obtain ⟨es, hu⟩ := hs.driver
  obtain ⟨fs, hv⟩ := ht.driver
  constructor
  · rw [hu, hv]
    exact h.chip
  · rw [hu, hv]
    exact h.buffers
  · rw [hu, hv]
    exact h.capture
  · exact hsinks

section Captures

variable [Sink δ]

/-- Two captures that have the same registers once they are armed end alike, if their signals fill
them. -/
theorem captureOn_alike {n : Nat} {stream : Array UInt8} {sinks : Nat → δ}
    (hs : Sized n stream sinks s) (ht : Sized n stream sinks t)
    (hchip : t.driver.fifo.board.chip.setMode .immediateTrigger =
      s.driver.fifo.board.chip.setMode .immediateTrigger)
    (hcompletion : t.driver.completion = s.driver.completion) {afterArm afterWait : List Signal}
    (hfills : Signal.Fills (s.driver.fifo.board.chip.setMode .immediateTrigger)
      (afterArm ++ afterWait)) :
    let x := Driver.captureOn driverPart (Signal.during afterArm afterWait) s
    let y := Driver.captureOn driverPart (Signal.during afterArm afterWait) t
    x.1 = .ok () ∧ y.1 = .ok () ∧ Level x.2 y.2 := by
  intro x y
  obtain ⟨b, hb, hbn⟩ := hs.buffers
  obtain ⟨b', hb', hbn'⟩ := ht.buffers
  obtain ⟨ds, hj⟩ := hs.journal
  obtain ⟨ds', hj'⟩ := ht.journal
  obtain ⟨c, hm, hc, hk⟩ := hs.healthy.setFifoMode .immediateTrigger
  obtain ⟨c', hm', hc', hk'⟩ := ht.healthy.setFifoMode .immediateTrigger
  obtain ⟨hp, hq, hstays, hrun⟩ := captureOn_armed hs.sound hs.idle hb hj hm
    (afterArm.map Signal.operation) (afterWait.map Signal.operation) rfl rfl
  obtain ⟨hp', hq', hstays', hrun'⟩ := captureOn_armed ht.sound ht.idle hb' hj' hm'
    (afterArm.map Signal.operation) (afterWait.map Signal.operation) rfl rfl
  have hbegun : Alike (s.pass (s.driver.begun c)) (t.pass (t.driver.begun c')) := by
    refine ⟨⟨⟨hc, hc'⟩, hk'.trans (hchip.trans hk.symm), congrArg Completion.init hcompletion, ?_,
      fun hdone => nomatch hdone⟩, ht.sinks.trans hs.sinks.symm⟩
    have hw := (Driver.watermark_of_buffers hb).trans hbn
    exact ((Driver.watermark_of_buffers hb').trans hbn').trans hw.symm
  have hphase := phase_begun hs.sound hb hj hm
  have hphase' := phase_begun ht.sound hb' hj' hm'
  have halike := (hbegun.runAll afterArm hphase hphase').waiting.runAll afterWait hp.waiting
    hp'.waiting
  have hdone := hphase.filled hc (hk ▸ hfills)
  have hx : x = _ := hrun
  have hy : y = _ := hrun'
  generalize Operation.runAll (afterArm.map Signal.operation) (s.pass (s.driver.begun c)) = u at *
  generalize Operation.runAll (afterArm.map Signal.operation) (t.pass (t.driver.begun c')) = u' at *
  generalize Operation.runAll (afterWait.map Signal.operation) u.waiting = v at *
  generalize Operation.runAll (afterWait.map Signal.operation) u'.waiting = v' at *
  -- The first of the two has read the FIFO, and its result is in a completion that both have.
  obtain ⟨hread, hbuffers⟩ := halike.driver.read hdone
  have hread' : v'.driver.completion.result? = some (.ok ()) := halike.driver.completion ▸ hread
  rw [hx, hy, Driver.endCapture_published hq.sound hq.armed hstays hread,
    Driver.endCapture_published hq'.sound hq'.armed hstays' hread']
  exact ⟨rfl, rfl, halike.driver.chip, hbuffers, rfl, halike.sinks⟩

end Captures

/-! ## Deliveries -/

/-- How the call ends and what it does to the sinks depends on the sinks alone, and of the driver it
changes only the record of the board. -/
def OnSinks (a : Call (Scene δ) Unit) : Prop :=
  ∀ s t, t.sinks = s.sinks → (a t).1 = (a s).1 ∧ (a t).2.sinks = (a s).2.sinks ∧ Noted t (a t).2

namespace OnSinks

theorem fail (e : Cause) : OnSinks (.fail e : Call (Scene δ) Unit) :=
  fun _ t h => ⟨rfl, h, .refl t⟩

theorem pure : OnSinks (Pure.pure () : Call (Scene δ) Unit) := fun _ t h => ⟨rfl, h, .refl t⟩

theorem note (e : Event) : OnSinks (Action.within boardPart (Board.note e) : Call (Scene δ) Unit) :=
  fun _ _ h => ⟨rfl, h, ⟨_, rfl⟩, [_], rfl⟩

theorem bind {a : Call (Scene δ) Unit} {f : Unit → Call (Scene δ) Unit} (ha : OnSinks a)
    (hf : OnSinks (f ())) : OnSinks (a >>= f) := by
  intro s t h
  obtain ⟨hout, hsinks, hnoted⟩ := ha s t h
  rw [Action.bind_apply, Action.bind_apply]
  rcases hs : a s with ⟨o, u⟩
  rcases ht : a t with ⟨o', v⟩
  rw [hs, ht] at hout hsinks
  rw [ht] at hnoted
  cases hout
  cases o with
  | ok _ =>
    obtain ⟨hout, hsinks, hnoted'⟩ := hf u v hsinks
    exact ⟨hout, hsinks, hnoted.trans hnoted'⟩
  | error _ => exact ⟨rfl, hsinks, hnoted⟩
  | fault _ => exact ⟨rfl, hsinks, hnoted⟩

variable [Sink δ] (i : Nat)

theorem writeBytes (bytes : List UInt8) :
    OnSinks (Driver.writeBytes boardPart (sinkPart i) bytes : Call (Scene δ) Unit) := by
  intro s t h
  have hget : (sinkPart i).get t = (sinkPart i).get s := congrFun h i
  unfold Driver.writeBytes
  rw [Action.state_bind, Action.state_bind, hget]
  generalize Sink.write bytes ((sinkPart i).get s) = w
  obtain ⟨taken, x⟩ := w
  have hsinks : ((sinkPart i).set x t).sinks = ((sinkPart i).set x s).sinks :=
    congrArg (fun (sinks : Nat → δ) j => if j = i then x else sinks j) h
  cases taken with
  | true => exact ⟨rfl, hsinks, ⟨_, rfl⟩, [_], rfl⟩
  | false => exact ⟨rfl, hsinks, ⟨_, rfl⟩, [_], rfl⟩

theorem writeBlocks (blocks : List (List UInt32)) :
    OnSinks (Driver.writeBlocks boardPart (sinkPart i) blocks : Call (Scene δ) Unit) := by
  induction blocks with
  | nil => exact .pure
  | cons block rest ih => exact .bind (.writeBytes i _) ih

theorem deliver (samples : List UInt32) :
    OnSinks (Driver.deliver boardPart (sinkPart i) samples : Call (Scene δ) Unit) := by
  have hwrite : ∀ (free needed : Nat) (blocks : List (List UInt32)),
      OnSinks (if free < needed then .fail .bufferFull
        else Driver.writeBlocks boardPart (sinkPart i) blocks : Call (Scene δ) Unit) := by
    intro free needed blocks
    split
    · exact .fail _
    · exact .writeBlocks i blocks
  intro s t h
  have hget : (sinkPart i).get t = (sinkPart i).get s := congrFun h i
  rw [Driver.deliver_eq, Action.state_bind, Action.state_bind, hget]
  dsimp only
  split
  · exact OnSinks.bind (.note _) (hwrite _ _ _) s t h
  · exact hwrite _ _ _ s t h

end OnSinks

/-! ## The two ways -/

variable [Sink δ]

/-- Two submissions whose captures end alike end alike. -/
theorem submitOn_alike {n : Nat} {stream : Array UInt8} {sinks : Nat → δ}
    (hs : Sized n stream sinks s) (ht : Sized n stream sinks t)
    (hchip : t.driver.fifo.board.chip.setMode .immediateTrigger =
      s.driver.fifo.board.chip.setMode .immediateTrigger)
    (hcompletion : t.driver.completion = s.driver.completion) (i : Nat)
    {afterArm afterWait : List Signal}
    (hfills : Signal.Fills (s.driver.fifo.board.chip.setMode .immediateTrigger)
      (afterArm ++ afterWait)) :
    let x := Driver.submitOn driverPart (sinkPart i) (Signal.during afterArm afterWait) n s
    let y := Driver.submitOn driverPart (sinkPart i) (Signal.during afterArm afterWait) n t
    y.1 = x.1 ∧ Level x.2 y.2 := by
  intro x y
  have hready : ∀ {u : Scene δ}, Sized n stream sinks u → u.driver.watermark = n := by
    intro u hu
    obtain ⟨b, hb, hn⟩ := hu.buffers
    exact (Driver.watermark_of_buffers hb).trans hn
  have hx : x = _ := submitOn_ready (hready hs) i _
  have hy : y = _ := submitOn_ready (hready ht) i _
  have hcapture := captureOn_alike hs ht hchip hcompletion hfills
  rw [Action.bind_apply] at hx hy
  rcases hu : Driver.captureOn driverPart (Signal.during afterArm afterWait) s with ⟨o, u⟩
  rcases hv : Driver.captureOn driverPart (Signal.during afterArm afterWait) t with ⟨o', v⟩
  rw [hu, hv] at hcapture
  rw [hu] at hx
  rw [hv] at hy
  obtain ⟨ho, ho', hlevel⟩ := hcapture
  dsimp only at ho ho' hlevel
  subst ho ho'
  have hdeliver := fun samples => OnSinks.deliver (δ := δ) i samples
  have hsamples : v.driver.samples = u.driver.samples := Driver.samples_of_buffers hlevel.buffers
  obtain ⟨hout, hsinks, hnoted⟩ := hdeliver u.driver.samples.toList u v hlevel.sinks
  have hrun : y = Driver.deliver boardPart (sinkPart i) u.driver.samples.toList v := by
    rw [← hsamples]
    exact hy
  rw [hx, hrun]
  exact ⟨hout, hlevel.noted (hdeliver _ u u rfl).2.2 hnoted hsinks⟩

/-- A submission of as many samples as the watermark has, which skips the change of the watermark,
and one after that change. The driver is one that any run leaves idle with buffers, whatever failed
on the way, if nothing foreign has changed the registers of the watermark; from now on nothing
fails. During both captures the converter does the same, and from its arming on it shows the FIFO
full to at least one interrupt. Then the change succeeds, and the two submissions have the same
result and leave the same sinks, the same samples in buffers of the same sizes, the same capture
state, and the same registers. -/
theorem submitOn_skips {δ' : Type} [Sink δ'] {c : Config} {b : Board} {d₀ : Driver}
    (h : (Driver.init c b).1 = .ok d₀) (sinks₀ : Nat → δ') (ops : List (Operation δ'))
    (hspares : Driver.SparesWatermark (Operation.runAll ops (start d₀ sinks₀)).journal)
    {e : Entry δ'} (he : e ∈ (Operation.runAll ops (start d₀ sinks₀)).journal) {d : Driver}
    (hd : d ∈ e.drivers) (hidle : d.capture = .idle) (hsized : d.fifo.buffers.isSome = true)
    (hhealthy : d.fifo.board.Healthy) (sinks : Nat → δ) (i : Nat)
    {afterArm afterWait : List Signal}
    (hfills : Signal.Fills (d.fifo.board.chip.setMode .immediateTrigger)
      (afterArm ++ afterWait)) :
    let submit := Driver.submitOn driverPart (sinkPart i) (Signal.during afterArm afterWait)
      d.watermark
    let x := submit (start d sinks)
    ∃ s, Action.within driverPart (Driver.setWatermark d.watermark) (start d sinks) = (.ok (), s) ∧
      let y := submit s
      y.1 = x.1 ∧ y.2.sinks = x.2.sinks ∧ y.2.driver.samples = x.2.driver.samples ∧
        y.2.driver.fifo.rawSize = x.2.driver.fifo.rawSize ∧
        y.2.driver.fifo.formattedSize = x.2.driver.fifo.formattedSize ∧
        y.2.driver.capture = x.2.driver.capture ∧
        y.2.driver.fifo.board.registers = x.2.driver.fifo.board.registers := by
  intro submit x
  have htraced := Operation.run_traced h sinks₀ ops
  have hsound : d.Sound := htraced.sound d (htraced.shown e he d hd)
  obtain ⟨b', hb⟩ := Option.isSome_iff_exists.mp hsized
  have hshaped := hsound.shaped b' hb
  have hw := Driver.watermark_of_buffers hb
  have h1 : 1 ≤ d.watermark := hw ▸ hshaped.one_le
  have h2 : d.watermark ≤ fifoDepth := hw ▸ hshaped.le_depth
  obtain ⟨s, hset, hs, hcompletion, hchip⟩ :=
    setWatermark_sized hsound hidle hhealthy h1 h2 sinks
  have hstart := start_sized hsound hidle hhealthy h1 sinks
  have harmed : s.driver.fifo.board.chip.setMode .immediateTrigger =
      d.fifo.board.chip.setMode .immediateTrigger := by
    rw [hchip]
    exact (Operation.run_programmed h sinks₀ ops hspares e he d hd).armed hsized
  obtain ⟨hout, hlevel⟩ := submitOn_alike hstart hs harmed hcompletion i hfills
  refine ⟨s, hset, hout, hlevel.sinks, Driver.samples_of_buffers hlevel.buffers, ?_, ?_,
    hlevel.capture, congrArg Chip.registers hlevel.chip⟩
  · exact congrArg (fun b => b.elim 0 Buffers.rawSize) hlevel.buffers
  · exact congrArg (fun b => b.elim 0 Buffers.formattedSize) hlevel.buffers

/-- The buffers hold the samples of an earlier capture, the FIFO mode is one for an event trigger,
and the FIFO is filled anew during the capture. -/
theorem submitOn_skips_refilled :
    ∃ d₀, (Driver.init { watermark := 2 } (Board.probed [1, 2])).1 = .ok d₀ ∧
      let ring := Ring.fresh 12 (by decide) (by decide)
      let t := Operation.runAll [.capture [.interrupt] [], .storeAttribute 11 "2", .disturb .mended]
        (start d₀ fun _ => ring)
      let refill := Signal.change fun k => { k with fifo := Sample.pack 0 [3, 4] }
      let submit := Driver.submitOn driverPart (sinkPart 0)
        (Signal.during [refill, .interrupt] []) t.driver.watermark
      let x := submit (start t.driver fun _ => ring)
      t.driver.samples = #[1, 2] ∧ t.driver.fifo.board.chip.mode = .eventTriggerWatermark ∧
        x.1 = .ok () ∧ x.2.driver.samples = #[3, 4] ∧
        ∃ s, Action.within driverPart (Driver.setWatermark t.driver.watermark)
            (start t.driver fun _ => ring) = (.ok (), s) ∧
          (submit s).1 = .ok () ∧ (submit s).2.sinks = x.2.sinks ∧
          (submit s).2.driver.samples = #[3, 4] ∧
          (submit s).2.driver.fifo.board.registers = x.2.driver.fifo.board.registers := by
  have hrun : ((Driver.init { watermark := 2 } (Board.probed [1, 2])).1.map fun d₀ =>
      let ring := Ring.fresh 12 (by decide) (by decide)
      let t := Operation.runAll [.capture [.interrupt] [], .storeAttribute 11 "2", .disturb .mended]
        (start d₀ fun _ => ring)
      let refill := Signal.change fun k => { k with fifo := Sample.pack 0 [3, 4] }
      let x := Driver.submitOn driverPart (sinkPart 0)
        (Signal.during [refill, .interrupt] []) t.driver.watermark (start t.driver fun _ => ring)
      decide (Driver.SparesWatermark t.journal ∧ t.driver.capture = .idle ∧
        t.driver.fifo.buffers.isSome = true ∧ t.driver.samples = #[1, 2] ∧
        t.driver.fifo.board.chip.mode = .eventTriggerWatermark ∧ x.1 = .ok () ∧
        x.2.driver.samples = #[3, 4] ∧
        (t.driver.fifo.board.chip.setMode .immediateTrigger).full)) = .ok true := by
    decide +kernel
  obtain ⟨d₀, hinit, hrun⟩ := Outcome.of_map_ok hrun
  refine ⟨d₀, hinit, ?_⟩
  intro ring t refill submit x
  obtain ⟨hspares, hidle, hsized, hbefore, hmode, hok, hsamples, hfull⟩ := of_decide_eq_true hrun
  have hhealthy : t.driver.fifo.board.Healthy := Board.healthy_default rfl rfl
  -- a refill of the FIFO does not show in the status
  have hfills : Signal.Fills (t.driver.fifo.board.chip.setMode .immediateTrigger)
      ([refill, .interrupt] ++ []) := .inl hfull
  have hlast : Entry.ended (.disturb .mended) _ t.driver _ ∈ t.journal := List.mem_cons_self
  obtain ⟨s, hset, hout, hsinks, hsame, -, -, -, hregisters⟩ := submitOn_skips hinit
    (fun _ => ring) _ hspares hlast (List.mem_cons_of_mem _ List.mem_cons_self) hidle hsized
    hhealthy (fun _ => ring) 0 hfills
  exact ⟨hbefore, hmode, hok, hsamples, s, hset, hout.trans hok, hsinks, hsame.trans hsamples,
    hregisters⟩

end Scene

end AdcCapture
