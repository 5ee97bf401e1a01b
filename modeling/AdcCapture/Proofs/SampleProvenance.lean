/-
  Where the samples of a driver come from. The buffers are written by two kinds of passage only:
  a change of the watermark makes new ones, all zero, and an interrupt that a capture waits for
  puts the decoded readout into them, if the readout succeeds. So the samples of any state of any
  run can be read off from the passages before it (`Provenance`): the last change of the watermark,
  and the last readout since (`run_provenance`). An interrupt that no capture waits for does nothing
  to the driver but to its board, and there it can do no more than turn the FIFO off (`Unheard`).
-/
import AdcCapture.Proofs.PassageEffects

namespace AdcCapture

/-! ## The history of the buffers -/

namespace Driver

/-- On the way from `x` to `y` an interrupt that found the FIFO full read these bytes out, for a
capture that was pending and had no result yet. -/
structure ReadsOut (raw : Array UInt8) (x y : Driver) : Prop where
  full : x.full
  pending : x.capture = .armed
  undone : x.completion.done = false
  read : x.readout = .ok raw
  run : onInterrupt x = (.ok (), y)

end Driver

open Driver (Resizes ReadsOut Effect)

/-- The argument of the last change of the watermark that succeeded among these passages, the latest
first, and the passages since; `w₀` if there was none. -/
inductive LastResize (w₀ : Nat) : List (Driver × Driver) → Nat → List (Driver × Driver) → Prop where
  | start : LastResize w₀ [] w₀ []
  | here {w : Nat} {x y : Driver} {l : List (Driver × Driver)} (h : Resizes w x y) :
      LastResize w₀ ((x, y) :: l) w []
  | earlier {w : Nat} {x y : Driver} {l since : List (Driver × Driver)}
      (h : ¬ ∃ v, Resizes v x y) (hl : LastResize w₀ l w since) :
      LastResize w₀ ((x, y) :: l) w ((x, y) :: since)

/-- The bytes of the last readout that succeeded among these passages, the latest first. -/
inductive LastReadout : List (Driver × Driver) → Array UInt8 → Prop where
  | here {raw : Array UInt8} {x y : Driver} {l : List (Driver × Driver)} (h : ReadsOut raw x y) :
      LastReadout ((x, y) :: l) raw
  | earlier {raw : Array UInt8} {x y : Driver} {l : List (Driver × Driver)}
      (h : ¬ ∃ r, ReadsOut r x y) (hl : LastReadout l raw) : LastReadout ((x, y) :: l) raw

/-- Where the samples of the driver `d` come from that these passages have led to, after a start
with the watermark `w₀`. -/
inductive Provenance (w₀ : Nat) (l : List (Driver × Driver)) (d : Driver) : Prop where
  /-- There are no buffers. -/
  | unsized (h : d.fifo.buffers = none)
  /-- Nothing was read out since the last change of the watermark. -/
  | blank {w : Nat} {since : List (Driver × Driver)} (hsized : d.fifo.buffers.isSome = true)
      (hresize : LastResize w₀ l w since)
      (hunread : ∀ z ∈ since, ¬ ∃ raw, ReadsOut raw z.1 z.2)
      (h : d.samples = Array.replicate w 0)
  /-- The last readout since the last change of the watermark gave these samples. -/
  | read {w : Nat} {since : List (Driver × Driver)} {raw : Array UInt8}
      (hsized : d.fifo.buffers.isSome = true) (hresize : LastResize w₀ l w since)
      (hread : LastReadout since raw) (hsize : raw.size = 3 * w + 1)
      (h : Sample.decode raw w = (.ok d.samples : Outcome Cause _))

/-! ## What passages do to the buffers -/

namespace Driver

variable {δ : Type} {J : List (Entry δ)} {d x y : Driver} {w : Nat}

theorem size_samples (d : Driver) : d.samples.size = d.watermark := by
  unfold samples watermark Fifo.samples Fifo.watermark
  cases d.fifo.buffers <;> rfl

theorem setWatermark_buffers (h : setWatermark w x = (.ok (), y)) :
    y.fifo.buffers = some (.blank w) := by
  cases hc : x.capture with
  | armed =>
    rw [setWatermark_armed hc] at h
    cases h
  | idle =>
    have hends := Fifo.setWatermark_ends w x.fifo
    rw [setWatermark_idle hc] at h
    obtain ⟨f, hf, rfl⟩ := Action.of_within_ok _ h
    rw [show Fifo.setWatermark w x.fifo = (.ok (), f) from hf] at hends
    cases hends with
    | done => rfl

/-- A change of the watermark that succeeds leaves new buffers. -/
theorem Resizes.buffers (h : Resizes w x y) : y.fifo.buffers = some (.blank w) := by
  cases h with
  | set h => exact setWatermark_buffers h
  | @stored index input hindex hparse h =>
    unfold storeAttribute at h
    rw [hindex] at h
    obtain ⟨_, z, -, h⟩ := Action.of_bind_ok _ h
    rw [hparse, Action.give_ok_bind] at h
    exact setWatermark_buffers h

/-- Anything else keeps the buffers, or gives them back. -/
theorem Effect.buffers (h : Effect J x y) (hx : x.Sound) (hresizes : ¬ ∃ v, Resizes v x y)
    (hreads : ¬ ∃ raw, ReadsOut raw x y) :
    y.fifo.buffers = x.fifo.buffers ∨ y.fifo.buffers = none := by
  cases h with
  | aside _ => exact .inl rfl
  | foreign _ _ _ => exact .inl rfl
  | stored _ _ _ => exact .inl rfl
  | timed => exact .inl rfl
  | unsized _ => exact .inl rfl
  | unarmed _ _ => exact .inl rfl
  | begun _ _ => exact .inl rfl
  | closed _ _ _ => exact .inl rfl
  | abandoned _ _ _ _ _ => exact .inl rfl
  | resized _ _ h hok =>
    cases h with
    | refused => exact .inl rfl
    | undisabled => exact .inr rfl
    | noMemory => exact .inr rfl
    | unprogrammed => exact .inr rfl
    | done => exact absurd ⟨_, hok rfl⟩ hresizes
  | interrupted =>
    left
    by_cases hquiet : ¬ x.full ∨ x.awaits = false
    · exact (interrupted_quiet hquiet).buffers
    · obtain ⟨hfull, hawaits⟩ := not_or.mp hquiet
      have hfull : x.full := Classical.not_not.mp hfull
      have hawaits : x.awaits = true := by simpa using hawaits
      obtain ⟨harmed, hundone⟩ := awaits_iff.mp hawaits
      obtain ⟨b, hb⟩ := Option.isSome_iff_exists.mp (hx.sized harmed)
      cases (interrupted_published hx hfull hawaits hb).1 with
      | read hread => exact absurd ⟨_, hfull, harmed, hundone, hread, onInterrupt_eq hx⟩ hreads
      | failed _ _ hbuffers => exact hbuffers.trans hb.symm

end Driver

/-! ## Provenance along a run -/

namespace Provenance

variable {δ : Type} {J : List (Entry δ)} {x y d : Driver} {w₀ : Nat}
  {l : List (Driver × Driver)}

/-- Buffers are of the size that the last change of the watermark made them. -/
theorem resized (h : Provenance w₀ l d) (hsized : d.fifo.buffers.isSome = true) :
    ∃ since, LastResize w₀ l d.watermark since := by
  rw [← d.size_samples]
  cases h with
  | unsized h =>
    rw [h] at hsized
    cases hsized
  | blank _ hresize _ h =>
    rw [h, Array.size_replicate]
    exact ⟨_, hresize⟩
  | @read w since raw _ hresize _ hsize h =>
    rw [Sample.decode_eq (Nat.le_of_eq hsize.symm)] at h
    rw [← Outcome.ok.inj h]
    unfold Sample.words
    rw [Array.size_ofFn]
    exact ⟨_, hresize⟩

/-- A passage that neither resized the buffers nor read into them. -/
theorem kept (h : Provenance w₀ l x) (hresizes : ¬ ∃ v, Resizes v x y)
    (hreads : ¬ ∃ raw, ReadsOut raw x y) (hbuffers : y.fifo.buffers = x.fifo.buffers) :
    Provenance w₀ ((x, y) :: l) y := by
  have hsamples : y.samples = x.samples := Driver.samples_of_buffers hbuffers
  cases h with
  | unsized h => exact .unsized (hbuffers.trans h)
  | blank hsized hresize hunread h =>
    refine .blank (hbuffers ▸ hsized) (.earlier hresizes hresize) ?_ (hsamples.trans h)
    exact List.forall_mem_cons.mpr ⟨hreads, hunread⟩
  | read hsized hresize hread hsize h =>
    refine .read (hbuffers ▸ hsized) (.earlier hresizes hresize) (.earlier hreads hread) hsize ?_
    exact hsamples ▸ h

theorem of_resizes {w : Nat} (h : Resizes w x y) : Provenance w₀ ((x, y) :: l) y := by
  have hbuffers := h.buffers
  refine .blank (by rw [hbuffers]; rfl) (.here h) (fun _ hz => nomatch hz) ?_
  unfold Driver.samples Fifo.samples
  rw [hbuffers]
  rfl

theorem of_readsOut {raw : Array UInt8} (h : Provenance w₀ l x) (hx : x.Sound)
    (hresizes : ¬ ∃ v, Resizes v x y) (hreads : ReadsOut raw x y) :
    Provenance w₀ ((x, y) :: l) y := by
  have hsized := hx.sized hreads.pending
  obtain ⟨since, hresize⟩ := h.resized hsized
  obtain ⟨b, hb⟩ := Option.isSome_iff_exists.mp hsized
  have hawaits := Driver.awaits_iff.mpr ⟨hreads.pending, hreads.undone⟩
  have hy : y = x.interrupted :=
    (congrArg Prod.snd (hreads.run.symm.trans (Driver.onInterrupt_eq hx)))
  subst hy
  cases (Driver.interrupted_published hx hreads.full hawaits hb).1 with
  | failed hread => exact absurd (hreads.read.symm.trans hread) (fun h => nomatch h)
  | @read raw' hread hsize _ hbuffers =>
    cases hreads.read.symm.trans hread
    have hw := Driver.watermark_of_buffers hb
    have hlength : raw.size = 3 * x.watermark + 1 :=
      hsize.trans ((hx.shaped b hb).rawSize_eq.trans (congrArg Sample.streamLength hw.symm))
    refine .read (by rw [hbuffers]; rfl) (.earlier hresizes hresize) (.here hreads) hlength ?_
    rw [Sample.decode_eq (Nat.le_of_eq hlength.symm), hw]
    unfold Driver.samples Fifo.samples
    rw [hbuffers]
    rfl

/-- Every passage carries the provenance of the samples on. -/
theorem step (h : Provenance w₀ l x) (hx : x.Sound) (heffect : Effect J x y) :
    Provenance w₀ ((x, y) :: l) y := by
  by_cases hresizes : ∃ v, Resizes v x y
  · obtain ⟨v, hv⟩ := hresizes
    exact .of_resizes hv
  by_cases hreads : ∃ raw, ReadsOut raw x y
  · obtain ⟨raw, hraw⟩ := hreads
    exact h.of_readsOut hx hresizes hraw
  rcases heffect.buffers hx hresizes hreads with hbuffers | hbuffers
  · exact h.kept hresizes hreads hbuffers
  · exact .unsized hbuffers

end Provenance

theorem Driver.Started.provenance {c : Config} {b : Board} {d : Driver} (h : Started c b d) :
    Provenance c.watermark [] d := by
  obtain ⟨b', f, -, hset, hbuffers, -⟩ := h.sized
  cases hset with
  | done =>
    refine .blank (by rw [hbuffers]; rfl) .start (fun _ hz => nomatch hz) ?_
    unfold Driver.samples Fifo.samples
    rw [hbuffers]
    rfl

/-- What the first state has and every passage carries on, every state has with the passages that
have led to it. -/
theorem provenance_of_passages {w₀ : Nat} {d : Driver} :
    ∀ {l : List Driver}, l.getLast? = some d → Provenance w₀ [] d →
      (∀ z ∈ passages l, ∀ m, Provenance w₀ m z.1 → Provenance w₀ (z :: m) z.2) →
      ∀ y earlier, y :: earlier <:+ l → Provenance w₀ (passages (y :: earlier)) y
  | [], _, _, _ => fun _ _ hsuffix => nomatch List.suffix_nil.mp hsuffix
  | [e], hlast, hd, _ => by
    cases hlast
    intro y earlier hsuffix
    rcases List.suffix_cons_iff.mp hsuffix with h | h
    · cases h
      exact hd
    · cases List.suffix_nil.mp h
  | e :: x :: rest, hlast, hd, hstep => by
    have hrest := provenance_of_passages (List.getLast?_cons_cons.symm.trans hlast) hd
      fun z hz => hstep z (List.mem_cons_of_mem _ hz)
    intro y earlier hsuffix
    rcases List.suffix_cons_iff.mp hsuffix with h | h
    · cases h
      exact hstep (x, _) List.mem_cons_self _ (hrest x rest (List.suffix_refl _))
    · exact hrest y earlier h

/-! ## Interrupts that no capture waits for -/

/-- How an interrupt of the driver `y` ends in `z` if no capture waits for it. Only the board is
another one afterwards: the samples, the buffers and the completion are the same. On the bus,
registers were read, and the FIFO may have been turned off; arming the FIFO for a capture makes the
converter the same again. -/
structure Driver.Unheard (y z : Driver) : Prop where
  run : onInterrupt y = (.ok (), z)
  kept : z = y.withBoard z.fifo.board
  samples : z.samples = y.samples
  armed : z.fifo.board.chip.setMode .immediateTrigger = y.fifo.board.chip.setMode .immediateTrigger
  traffic : ∃ new, z.fifo.board.traffic = new ++ y.fifo.board.traffic ∧ ∀ a ∈ new,
    (∃ r v, a = .read r v) ∨ ∃ done, a = .write Register.generalConfig (Field.fifoMode.put
      FifoMode.disabled.code (y.fifo.board.registers.get Register.generalConfig)) done

theorem Driver.interrupted_unheard {y : Driver} (h : y.Sound) (hawaits : y.awaits = false) :
    Unheard y y.interrupted where
  run := onInterrupt_eq h
  kept := interrupted_unawaited hawaits
  samples := samples_of_buffers (interrupted_quiet (.inr hawaits)).buffers
  armed := by
    rcases (interrupted_ends h).chip with hchip | hchip
    · rw [hchip]
    · rw [hchip, Chip.setMode_setMode]
  traffic := by
    obtain ⟨new, hnew, honly⟩ := (interrupted_ends h).traffic
    refine ⟨new, hnew, fun a ha => ?_⟩
    cases honly a ha with
    | read => exact .inl ⟨_, _, rfl⟩
    | turnOff => exact .inr ⟨_, rfl⟩
    | readOut _ hawaits' => exact absurd (hawaits.symm.trans hawaits') Bool.noConfusion

/-! ## Runs -/

open Scene (CaptureEnds)

/-- In every state of every run, in which anything can fail and any operations can come in at the
interrupt points of captures, the samples come from where `Provenance` says. An interrupt that comes
while no capture waits for it, be it that none is pending or that the pending one has its result,
is `Unheard`. And what a capture comes back with is decided by the interrupts during it, whatever
was interrupted before. -/
theorem Operation.run_provenance {δ : Type} [Sink δ] {c : Config} {b : Board} {d : Driver}
    (h : (Driver.init c b).1 = .ok d) (sinks : Nat → δ) (ops : List (Operation δ)) :
    ∀ y earlier, y :: earlier <:+ states (runAll ops (Scene.start d sinks)).journal →
      Provenance c.watermark (passages (y :: earlier)) y ∧
      (y.capture = .idle ∨ y.completion.done = true → ∃ z, y.Unheard z) ∧
      (y.capture = .idle → y.fifo.buffers.isSome = true →
        ∀ (sinks' : Nat → δ) (afterArm afterWait : List (Operation δ)),
          let x := Driver.captureOn Scene.driverPart
            ⟨fun s => runAll afterArm s, fun s => runAll afterWait s⟩ (Scene.start y sinks')
          CaptureEnds y x.2 (interrupts x.2.journal) x.1) := by
  have htraced := run_traced h sinks ops
  intro y earlier hsuffix
  have hsound : y.Sound := htraced.sound y (hsuffix.subset List.mem_cons_self)
  refine ⟨?_, fun hunawaited => ⟨_, Driver.interrupted_unheard hsound ?_⟩, ?_⟩
  · refine provenance_of_passages htraced.first (Driver.init_started h).provenance ?_ y earlier
      hsuffix
    intro z hz m hm
    have hx := htraced.sound z.1 (mem_of_passages hz)
    exact hm.step hx ((htraced.passage z hz).effect hx)
  · rcases hunawaited with hidle | hdone
    · exact Driver.awaits_of_idle hidle
    · exact Driver.awaits_of_done hdone
  · intro hidle hsized sinks' afterArm afterWait
    exact (Scene.captureOn_sound hsound hidle hsized sinks' afterArm afterWait).1

/-- A capture with two interrupts and a third one when it is over; new buffers; a capture without
an interrupt, and one that comes too late. -/
theorem Operation.run_provenance_late :
    ∃ d, (Driver.init { watermark := 2 } (Board.probed [1, 2])).1 = .ok d ∧
      let J := (runAll [.capture [.interrupt] [.interrupt], .interrupt, .setWatermark 3,
        .capture [] [], .interrupt] (Scene.start d fun _ => ({ capacity := 0 } : Store))).journal
      (∀ y earlier, y :: earlier <:+ states J →
        Provenance 2 (passages (y :: earlier)) y ∧
        (y.capture = .idle ∨ y.completion.done = true → ∃ z, y.Unheard z) ∧
        (y.capture = .idle → y.fifo.buffers.isSome = true →
          ∀ (sinks' : Nat → Store) (afterArm afterWait : List (Operation Store)),
            let x := Driver.captureOn Scene.driverPart
              ⟨fun s => runAll afterArm s, fun s => runAll afterWait s⟩ (Scene.start y sinks')
            CaptureEnds y x.2 (interrupts x.2.journal) x.1)) ∧
      (states J).map Driver.samples = [#[0, 0, 0], #[0, 0, 0], #[0, 0, 0], #[0, 0, 0], #[0, 0, 0],
        #[0, 0, 0], #[1, 2], #[1, 2], #[1, 2], #[1, 2], #[1, 2], #[1, 2], #[0, 0], #[0, 0]] := by
  have hrun : ((Driver.init { watermark := 2 } (Board.probed [1, 2])).1.map fun d =>
      let J := (runAll [.capture [.interrupt] [.interrupt], .interrupt, .setWatermark 3,
        .capture [] [], .interrupt] (Scene.start d fun _ => ({ capacity := 0 } : Store))).journal
      (states J).map Driver.samples) =
      .ok [#[0, 0, 0], #[0, 0, 0], #[0, 0, 0], #[0, 0, 0], #[0, 0, 0], #[0, 0, 0], #[1, 2],
        #[1, 2], #[1, 2], #[1, 2], #[1, 2], #[1, 2], #[0, 0], #[0, 0]] := by decide +kernel
  obtain ⟨d, hinit, hsamples⟩ := Outcome.of_map_ok hrun
  exact ⟨d, hinit, run_provenance hinit _ _, hsamples⟩

end AdcCapture
