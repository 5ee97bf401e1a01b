/-
  A submission on a healthy board delivers what the FIFO holds, whatever went wrong before. The
  watermark can always be set, the capture is armed, and the first interrupt that finds the FIFO
  full reads it. During the capture the FIFO stays as it is, and is off as soon as the capture
  has its result (`Scene.Calm`); so the samples are those of the stream in the FIFO
  (`captureOn_reads`), and the ring gets their words.
-/
import AdcCapture.Proofs.ConverterSignals
import AdcCapture.Proofs.RingDelivery

namespace AdcCapture

/-! ## What an interrupt reads -/

namespace Driver

/-- An interrupt that finds the FIFO full reads these bytes. -/
def Reads (stream : Array UInt8) (x : Driver) : Prop :=
  ∃ raw, x.readout = .ok raw ∧ ∀ j < raw.size, raw.getD j 0 = stream.getD j 0

theorem readout_healthy {x : Driver} (h : x.fifo.board.Healthy) :
    x.readout = .ok (x.fifo.board.served x.fifo.rawSize) := by
  obtain ⟨c, hfull, hc, hk⟩ := h.fifoFull
  obtain ⟨d, hread, -, -⟩ := (hc.readData x.fifo.rawSize).mapError Failure.bus
  have hfifo : c.fifo = x.fifo.board.fifo := congrArg Chip.fifo hk
  have hserved : c.served x.fifo.rawSize = x.fifo.board.served x.fifo.rawSize := by
    unfold Board.served
    rw [hfifo]
  unfold readout
  rw [hfull, ← hserved]
  exact congrArg Prod.fst hread

theorem reads_healthy {x : Driver} (h : x.fifo.board.Healthy) : x.Reads x.fifo.board.fifo := by
  refine ⟨_, readout_healthy h, fun j hj => ?_⟩
  rw [Array.getD_eq_getD_getElem?, Array.getElem?_eq_getElem hj, Option.getD_some]
  exact Array.getElem_ofFn hj

/-- A capture that has its result has read the FIFO. -/
theorem Progress.read {b : Buffers} {l : List (Driver × Driver)} {y : Driver}
    {stream : Array UInt8} (h : Progress b l y) (hseen : ∀ z ∈ l, z.1.Reads stream)
    (hdone : y.completion.done = true) :
    ∃ raw : Array UInt8, raw.size = b.rawSize ∧ (∀ j < raw.size, raw.getD j 0 = stream.getD j 0) ∧
      y.completion.result? = some (.ok ()) ∧
      y.fifo.buffers = some ⟨raw, Sample.words raw b.watermark⟩ := by
  cases h with
  | waiting _ hopen _ => exact absurd (hdone.symm.trans hopen) Bool.noConfusion
  | @published early later x x' _ hearly hf honce hlater hpub =>
    have hx : (x, x') ∈ early ++ (x, x') :: later := List.mem_append_right _ List.mem_cons_self
    obtain ⟨raw', hraw', hbytes⟩ := hseen _ hx
    cases hpub with
    | @read raw hread hsize hslot hb =>
      have hsame : raw' = raw := Outcome.ok.inj (hraw'.symm.trans hread)
      exact ⟨raw, hsize, hsame ▸ hbytes, hslot, hb⟩
    | failed hread hslot hb => exact nomatch hraw'.symm.trans hread

end Driver

/-! ## A capture on a healthy board -/

variable {δ : Type}

/-- A failure of every write to the lower watermark register. -/
def Disturbance.worn : Disturbance where
  change b := { b with faults := { standing := [(.write Register.watermarkLow, 5)] } }
  record_eq _ := rfl

namespace Scene

/-- A capture in which nothing fails: every interrupt that read would have read this stream, and
the FIFO is off once there is a result. -/
structure Calm (stream : Array UInt8) (sinks : Nat → δ) (s : Scene δ) : Prop where
  healthy : s.driver.fifo.board.Healthy
  fifo : s.driver.fifo.board.fifo = stream
  off : s.driver.completion.done = true → s.driver.fifo.board.chip.mode = .disabled
  sinks : s.sinks = sinks
  seen : ∀ z ∈ interrupts s.journal, z.1.Reads stream

variable {b : Buffers} {k : Nat} {stream : Array UInt8} {sinks : Nat → δ} {s : Scene δ}

theorem Calm.waiting (h : Calm stream sinks s) : Calm stream sinks s.waiting where
  healthy := h.healthy.noted _
  fifo := h.fifo
  off := h.off
  sinks := h.sinks
  seen := h.seen

theorem Calm.interrupt (h : Calm stream sinks s) (hs : s.driver.Sound) (o : Outcome Cause Unit) :
    Calm stream sinks
      (Scene.note .interrupt s.driver (o, s.pass s.driver.interrupted)) := by
  obtain ⟨hhealthy, hfull, hempty⟩ := Driver.interrupted_healthy hs h.healthy
  refine ⟨hhealthy, ?_, ?_, h.sinks, ?_⟩
  · refine Eq.trans (b := s.driver.fifo.board.fifo) ?_ h.fifo
    by_cases hf : s.driver.full
    · exact congrArg Chip.fifo (hfull hf)
    · exact congrArg Chip.fifo (hempty hf)
  · intro hdone
    by_cases hf : s.driver.full
    · exact (congrArg Chip.mode (hfull hf)).trans (Chip.mode_setMode _ _)
    · have hquiet := (Driver.interrupted_quiet (.inl hf)).completion
      have hbefore : s.driver.completion.done = true := hquiet ▸ hdone
      exact (congrArg Chip.mode (hempty hf)).trans (h.off hbefore)
  · have hreads : s.driver.Reads stream := h.fifo ▸ Driver.reads_healthy h.healthy
    have hlist := interrupts_interrupt s.driver s.driver.interrupted o
      (s.pass s.driver.interrupted).journal
    rw [interrupts_pass] at hlist
    intro z hz
    rcases List.mem_append.mp (hlist ▸ hz) with hz | hz
    · exact h.seen z hz
    · rw [List.mem_singleton.mp hz]
      exact hreads

/-- A capture is over, and `w` samples of a stream are in the buffers. -/
structure Captured (w : Nat) (stream : Array UInt8) (t : Scene δ) : Prop where
  idle : t.driver.capture = .idle
  healthy : t.driver.fifo.board.Healthy
  off : t.driver.fifo.board.chip.mode = .disabled
  watermark : t.driver.watermark = w
  samples : ∃ raw : Array UInt8, (∀ j < Sample.streamLength w, raw.getD j 0 = stream.getD j 0) ∧
    t.driver.samples = Sample.words raw w

section Runs

variable [Sink δ]

theorem Calm.step (h : Calm stream sinks s) (hs : s.driver.Sound) {x : Signal} (hx : x.Plain) :
    Calm stream sinks (Scene.note x.operation s.driver ((x.operation : Operation δ).call s)) := by
  cases hx with
  | interrupt =>
    rw [show Signal.interrupt.operation = Operation.interrupt from rfl, call_interrupt hs]
    exact h.interrupt hs _
  | status v =>
    refine ⟨h.healthy.written Register.deviceStatus v, h.fifo, fun hdone => ?_, h.sinks, h.seen⟩
    have hmode : (s.driver.fifo.board.chip.write Register.deviceStatus v).mode =
        s.driver.fifo.board.chip.mode := Chip.mode_write_of_ne v _ (by decide)
    exact hmode.trans (h.off hdone)

theorem Calm.runAll {xs : List Signal} (hxs : ∀ x ∈ xs, x.Plain) {s : Scene δ}
    (h : Calm stream sinks s) (hp : Phase b k s) :
    Calm stream sinks (Operation.runAll (xs.map Signal.operation) s) := by
  induction xs generalizing s with
  | nil => exact h
  | cons x rest ih =>
    obtain ⟨hx, hrest⟩ := List.forall_mem_cons.mp hxs
    exact ih hrest (h.step hp.sound hx) (hp.step x.operation).1

/-- A capture on a healthy board that plain signals fill reads the FIFO. -/
theorem captureOn_reads (hs : s.driver.Sound) (hidle : s.driver.capture = .idle)
    (hb : s.driver.fifo.buffers = some b) (hhealthy : s.driver.fifo.board.Healthy)
    {ds : List Driver} (hj : s.journal = ds.map Entry.passed) {afterArm afterWait : List Signal}
    (hplain : ∀ x ∈ afterArm ++ afterWait, x.Plain)
    (hfills : Signal.Fills (s.driver.fifo.board.chip.setMode .immediateTrigger)
      (afterArm ++ afterWait)) :
    ∃ t, Driver.captureOn driverPart (Signal.during afterArm afterWait) s = (.ok (), t) ∧
      t.sinks = s.sinks ∧ Captured b.watermark s.driver.fifo.board.fifo t := by
  obtain ⟨harm, hwait⟩ := List.forall_mem_append.mp hplain
  obtain ⟨c, hm, hc, hk⟩ := hhealthy.setFifoMode .immediateTrigger
  obtain ⟨ht, hu, hstays, hrun⟩ := captureOn_armed hs hidle hb hj hm
    (afterArm.map Signal.operation) (afterWait.map Signal.operation) rfl rfl
  have hbegun : Calm s.driver.fifo.board.fifo s.sinks (s.pass (s.driver.begun c)) := by
    refine ⟨hc, congrArg Chip.fifo hk, (fun hdone => nomatch hdone), rfl, fun z hz => ?_⟩
    have hnone : interrupts (s.pass (s.driver.begun c)).journal = [] := by
      have hlist := interrupts_passed (s.driver.begun c :: ds) ([] : List (Entry δ))
      rw [List.append_nil, List.map_cons, ← hj] at hlist
      exact hlist
    rw [hnone] at hz
    exact nomatch hz
  have hphase := phase_begun hs hb hj hm
  have hcalm := (hbegun.runAll harm hphase).waiting.runAll hwait ht.waiting
  have hdone := hphase.filled hc (hk ▸ hfills)
  generalize Operation.runAll (afterArm.map Signal.operation) (s.pass (s.driver.begun c)) = t at *
  generalize Operation.runAll (afterWait.map Signal.operation) t.waiting = u at *
  obtain ⟨raw, hsize, hbytes, hslot, hbuffers⟩ := hu.progress.read hcalm.seen hdone
  rw [Driver.endCapture_published hu.sound hu.armed hstays hslot] at hrun
  refine ⟨_, hrun, hcalm.sinks, rfl, hcalm.healthy.noted _, hcalm.off hdone, ?_, raw, ?_, ?_⟩
  · exact hu.progress.watermark.2
  · rw [← (hs.shaped b hb).rawSize_eq, ← hsize]
    exact hbytes
  · change u.driver.samples = _
    unfold Driver.samples Fifo.samples
    rw [hbuffers]
    rfl

end Runs

/-! ## A submission on a healthy board -/

/-- A scene in which a capture of `w` samples can begin. -/
structure Sized (w : Nat) (stream : Array UInt8) (sinks : Nat → δ) (s : Scene δ) : Prop where
  sound : s.driver.Sound
  idle : s.driver.capture = .idle
  healthy : s.driver.fifo.board.Healthy
  fifo : s.driver.fifo.board.fifo = stream
  buffers : ∃ b, s.driver.fifo.buffers = some b ∧ b.watermark = w
  journal : ∃ ds : List Driver, s.journal = ds.map Entry.passed
  sinks : s.sinks = sinks

/-- Setting the watermark works from whatever an idle driver was left with. -/
theorem setWatermark_sized {d : Driver} (h : d.Sound) (hidle : d.capture = .idle)
    (hhealthy : d.fifo.board.Healthy) {n : Nat} (h1 : 1 ≤ n) (h2 : n ≤ fifoDepth)
    (sinks : Nat → δ) :
    ∃ s, Action.within driverPart (Driver.setWatermark n) (start d sinks) = (.ok (), s) ∧
      Sized n d.fifo.board.fifo sinks s ∧ s.driver.completion = d.completion ∧
      s.driver.fifo.board.chip =
        (d.fifo.board.chip.setMode .disabled).setWide .watermark (UInt16.ofNat n) := by
  obtain ⟨c, hset, hc, hk⟩ := Fifo.setWatermark_healthy h.live hhealthy h1 h2
  have hrun : Driver.setWatermark n d = (.ok (), _) :=
    (Driver.setWatermark_idle hidle n).trans (Driver.onFifo_eq hset)
  obtain ⟨-, hsound, -⟩ := Driver.setWatermark_obeys n d h
  rw [hrun] at hsound
  refine ⟨_, Action.within_eq _ hrun, ?_, rfl, hk⟩
  refine ⟨hsound, hidle, hc, congrArg Chip.fifo hk, ?_, ⟨[_, d], rfl⟩, rfl⟩
  exact ⟨.blank n, rfl, Buffers.watermark_blank n⟩

/-- A driver that has the watermark already has the buffers for it. -/
theorem start_sized {d : Driver} (h : d.Sound) (hidle : d.capture = .idle)
    (hhealthy : d.fifo.board.Healthy) (h1 : 1 ≤ d.watermark) (sinks : Nat → δ) :
    Sized d.watermark d.fifo.board.fifo sinks (start d sinks) := by
  refine ⟨h, hidle, hhealthy, rfl, ?_, ⟨[d], rfl⟩, rfl⟩
  cases hb : d.fifo.buffers with
  | none =>
    have hzero : d.watermark = 0 := by
      unfold Driver.watermark Fifo.watermark
      rw [hb]
      rfl
    omega
  | some b => exact ⟨b, hb, (Driver.watermark_of_buffers hb).symm⟩

variable [Sink δ] in
/-- Where the watermark is what is asked for, a submission is a capture and a delivery. -/
theorem submitOn_ready {s : Scene δ} {n : Nat} (h : s.driver.watermark = n) (i : Nat)
    (interrupts : Interrupts (Scene δ)) :
    Driver.submitOn driverPart (sinkPart i) interrupts n s =
      (Driver.captureOn driverPart interrupts >>= fun _ => Action.state >>= fun t =>
        Driver.deliver boardPart (sinkPart i) t.driver.samples.toList) s := by
  unfold Driver.submitOn
  rw [Action.state_bind]
  exact if_pos h ▸ rfl

variable [Sink δ] in
/-- Every submission comes down to one, from a scene with buffers of the right size. Arming shows
the same status there as without a change of the watermark before. -/
theorem submitOn_sized {d : Driver} (h : d.Sound) (hidle : d.capture = .idle)
    (hhealthy : d.fifo.board.Healthy) {n : Nat} (h1 : 1 ≤ n) (h2 : n ≤ fifoDepth)
    (sinks : Nat → δ) (i : Nat) (interrupts : Interrupts (Scene δ)) :
    ∃ s, Sized n d.fifo.board.fifo sinks s ∧
      (d.fifo.board.chip.setMode .immediateTrigger).SameStatus
        (s.driver.fifo.board.chip.setMode .immediateTrigger) ∧
      Driver.submitOn driverPart (sinkPart i) interrupts n (start d sinks) =
        (Driver.captureOn driverPart interrupts >>= fun _ => Action.state >>= fun t =>
          Driver.deliver boardPart (sinkPart i) t.driver.samples.toList) s := by
  by_cases hn : d.watermark = n
  · subst hn
    exact ⟨_, start_sized h hidle hhealthy h1 sinks, .refl _, submitOn_ready rfl i interrupts⟩
  · obtain ⟨s, hset, hsized, -, hchip⟩ := setWatermark_sized h hidle hhealthy h1 h2 sinks
    refine ⟨s, hsized, hchip ▸ .armed _ _, ?_⟩
    unfold Driver.submitOn
    rw [Action.state_bind, show driverPart.get (start d sinks) = d from rfl, if_neg hn]
    exact Action.bind_ok _ hset _

theorem Noted.captured {s t : Scene δ} {w : Nat} (h : Noted s t) (hs : Captured w stream s) :
    Captured w stream t := by
  obtain ⟨es, hd⟩ := h.driver
  have hidle := hs.idle
  obtain ⟨haccesses, hallocator⟩ := hs.healthy
  have hoff := hs.off
  have hwatermark := hs.watermark
  have hsamples := hs.samples
  constructor <;> rw [hd]
  · exact hidle
  · exact ⟨haccesses, hallocator⟩
  · exact hoff
  · exact hwatermark
  · exact hsamples

/-- A capture of `n` samples that plain signals fill, and their delivery to a ring. -/
theorem submitOn_captured {s : Scene Ring} {n : Nat} {sinks : Nat → Ring} {sync : UInt8}
    {v : List UInt32} (h : Sized n (Sample.pack sync v) sinks s) (hn : n ≤ v.length)
    (hv : ∀ w ∈ v, w.toNat < 1 <<< 24) (i : Nat) {afterArm afterWait : List Signal}
    (hplain : ∀ x ∈ afterArm ++ afterWait, x.Plain)
    (hfills : Signal.Fills (s.driver.fifo.board.chip.setMode .immediateTrigger)
      (afterArm ++ afterWait)) :
    let x := (do
      Driver.captureOn driverPart (Signal.during afterArm afterWait)
      let t ← Action.state
      Driver.deliver boardPart (sinkPart i) t.driver.samples.toList : Call (Scene Ring) Unit) s
    (if 4 * min n ((sinks i).capacity / 4) ≤ (sinks i).free then
      x.1 = .ok () ∧ (x.2.sinks i).toList = (sinks i).toList ++
        (v.take (min n ((sinks i).capacity / 4))).flatMap Sample.littleEndian
    else x.1 = .error .bufferFull ∧ x.2.sinks i = sinks i) ∧
    Captured n (Sample.pack sync v) x.2 := by
  intro x
  obtain ⟨b, hb, rfl⟩ := h.buffers
  obtain ⟨ds, hj⟩ := h.journal
  obtain ⟨t, hcapture, hsinks, hcaptured⟩ :=
    captureOn_reads h.sound h.idle hb h.healthy hj hplain hfills
  rw [h.fifo] at hcaptured
  obtain ⟨u, hnoted, hdeliver⟩ := deliver_ring i t.driver.samples.toList t
  have hx : x = Driver.deliver boardPart (sinkPart i) t.driver.samples.toList t :=
    Action.bind_ok _ hcapture _
  have hu : x.2 = u := by
    rw [hx]
    split at hdeliver <;> rw [hdeliver.1]
  obtain ⟨raw, hbytes, hsamples⟩ := hcaptured.samples
  have hlist : t.driver.samples.toList = v.take b.watermark := by
    rw [hsamples]
    exact Sample.words_of_pack hn hv hbytes
  have hlimit : limit (sinks i) (v.take b.watermark) =
      min b.watermark ((sinks i).capacity / 4) := by
    unfold limit
    rw [List.length_take, Nat.min_eq_left hn]
    rfl
  have htake : (v.take b.watermark).take (min b.watermark ((sinks i).capacity / 4)) =
      v.take (min b.watermark ((sinks i).capacity / 4)) := by
    rw [List.take_take, Nat.min_eq_left (Nat.min_le_left _ _)]
  have hword : Sample.wordBytes = 4 := rfl
  rw [hsinks, h.sinks, hlist, hlimit, htake, Nat.mul_comm, hword, ← hlist] at hdeliver
  refine ⟨?_, hu ▸ hnoted.captured hcaptured⟩
  split at hdeliver
  · rename_i hroom
    rw [if_pos hroom, hx, hdeliver.1]
    exact ⟨rfl, hdeliver.2⟩
  · rename_i hroom
    rw [if_neg hroom, hx, hdeliver.1]
    exact ⟨rfl, hdeliver.2⟩

/-- A submission of `n` samples to a ring, by any driver that some run leaves idle, on a board on
which nothing fails from now on and whose FIFO holds at least `n` samples. While it captures, the
converter sets its status and interrupts, and from its arming on it shows the FIFO full to at least
one of these interrupts. The ring gets the words of the first samples, as many as its capacity
admits, if there is room for them all, and nothing otherwise. The driver is idle again, with the
watermark `n`, and the FIFO is off. -/
theorem submitOn_delivers {d : Driver} (h : d.Reachable) (hidle : d.capture = .idle) {n : Nat}
    (h1 : 1 ≤ n) (h2 : n ≤ fifoDepth) {c : Board} (hhealthy : c.Healthy) {sync : UInt8}
    {v : List UInt32} (hv : ∀ w ∈ v, w.toNat < 1 <<< 24) (hn : n ≤ v.length)
    (hfifo : c.fifo = Sample.pack sync v) (sinks : Nat → Ring) (i : Nat)
    {afterArm afterWait : List Signal} (hplain : ∀ x ∈ afterArm ++ afterWait, x.Plain)
    (hfills : Signal.Fills (c.chip.setMode .immediateTrigger) (afterArm ++ afterWait)) :
    let x := Driver.submitOn driverPart (sinkPart i) (Signal.during afterArm afterWait) n
      (start (d.withBoard c) sinks)
    let l := min n (((sinks i).places - 1) / 4)
    (if 4 * l ≤ (sinks i).free then
      x.1 = .ok () ∧ (x.2.sinks i).toList =
        (sinks i).toList ++ (v.take l).flatMap Sample.littleEndian
    else x.1 = .error .bufferFull ∧ x.2.sinks i = sinks i) ∧
    x.2.driver.capture = .idle ∧ x.2.driver.watermark = n ∧
    (Converter.fifoMode x.2.driver.fifo.board).1 = .ok .disabled := by
  intro x l
  obtain ⟨s, hsized, hstatus, hx⟩ := submitOn_sized (h.sound.withBoard c) hidle hhealthy h1 h2 sinks
    i (Signal.during afterArm afterWait)
  rw [show (d.withBoard c).fifo.board.fifo = c.fifo from rfl, hfifo] at hsized
  have hends := submitOn_captured hsized hn hv i hplain (hfills.sameStatus hplain hstatus)
  rw [← hx] at hends
  obtain ⟨hring, hcaptured⟩ := hends
  obtain ⟨_, hmode, -, -⟩ := hcaptured.healthy.fifoMode
  refine ⟨hring, hcaptured.idle, hcaptured.watermark, ?_⟩
  rw [hmode, hcaptured.off]

/-- A submission after a change of the watermark that failed and left no buffers behind. The FIFO is
full only at the second interrupt, which comes after the wait. -/
theorem submitOn_delivers_mended :
    ∃ d₀, (Driver.init { watermark := 3 } (Board.probed [])).1 = .ok d₀ ∧
      let ring := (Ring.fresh 12 (by decide) (by decide)).append [9]
      let d := (Operation.runAll [.disturb .worn, .setWatermark 5] (start d₀ fun _ => ring)).driver
      let b : Board := { Board.probed [1, 2, 0x800000] with fillOnArm := false }
      let x := Driver.submitOn driverPart (sinkPart 0)
        (Signal.during [.interrupt] [.status 0x80, .interrupt]) 2
        (start (d.withBoard b) fun _ => ring)
      d.watermark = 0 ∧ x.1 = .ok () ∧ (x.2.sinks 0).toList = [9, 1, 0, 0, 0, 2, 0, 0, 0] ∧
        x.2.driver.capture = .idle ∧ x.2.driver.watermark = 2 ∧
        (Converter.fifoMode x.2.driver.fifo.board).1 = .ok .disabled := by
  have hrun : ((Driver.init { watermark := 3 } (Board.probed [])).1.map fun d₀ =>
      let ring := (Ring.fresh 12 (by decide) (by decide)).append [9]
      let d := (Operation.runAll [.disturb .worn, .setWatermark 5] (start d₀ fun _ => ring)).driver
      (d.capture, d.watermark)) = .ok (.idle, 0) := by decide +kernel
  obtain ⟨d₀, hinit, hrun⟩ := Outcome.of_map_ok hrun
  refine ⟨d₀, hinit, ?_⟩
  intro ring d b x
  obtain ⟨hidle, hwatermark⟩ := Prod.mk.inj hrun
  have hd : d.Reachable := by
    refine ⟨Ring, inferInstance, _, _, d₀, fun _ => ring, [.disturb .worn, .setWatermark 5], hinit,
      ?_⟩
    exact List.mem_cons_of_mem _ List.mem_cons_self
  have hhealthy : b.Healthy := Board.healthy_default rfl rfl
  have hfifo : b.fifo = Sample.pack 0 [1, 2, 0x800000] := rfl
  have hsmall : ∀ w ∈ ([1, 2, 0x800000] : List UInt32), w.toNat < 1 <<< 24 := by
    intro w hw
    simp only [List.mem_cons, List.not_mem_nil, or_false] at hw
    rcases hw with rfl | rfl | rfl <;> decide
  have hplain : ∀ x ∈ [Signal.interrupt] ++ [.status 0x80, .interrupt], x.Plain := by
    intro x hx
    simp only [List.cons_append, List.nil_append, List.mem_cons, List.not_mem_nil, or_false] at hx
    rcases hx with rfl | rfl | rfl
    · exact .interrupt
    · exact .status 0x80
    · exact .interrupt
  have hfills : Signal.Fills (b.chip.setMode .immediateTrigger)
      ([.interrupt] ++ [.status 0x80, .interrupt]) := .inr (.inl (by decide +kernel))
  obtain ⟨hring, hrest⟩ := submitOn_delivers hd hidle (n := 2) (by decide) (by decide) hhealthy
    hsmall (by decide) hfifo (fun _ => ring) 0 hplain hfills
  rw [if_pos (by decide +kernel)] at hring
  exact ⟨hwatermark, hring.1, hring.2.trans (by decide +kernel), hrest⟩

end Scene

end AdcCapture
