/-
  An invalid argument means that nothing happened, at every layer. Calls on the converter and on a
  descriptor refuse an argument up front, whatever state they find. On a driver that rests on its
  soundness: a capture that was armed has buffers, so its readout has a place to go and there is a
  sample to show; a watermark that was set has buffers too, so the capture after it can be armed;
  a text that was parsed asks for a value that its attribute can have. What is left are the
  refusals before the first access, and one completion that was set up for a capture without
  buffers and withdrawn again.
-/
import AdcCapture.Proofs.StoredValues

namespace AdcCapture

variable {δ : Type}

/-! ## Calls that never refuse -/

namespace Attribute

open AdcCapture.Action (NeverInvalid)

theorem registerText_never {a : Attribute} (ha : a ≠ .raw) : a.registerText.NeverInvalid := by
  have hfield := Converter.getField_never
  cases a with
  | raw => exact absurd rfl ha
  | scale => exact .pure _
  | offset => exact .bind (Converter.getSigned_never _) fun _ => .pure _
  | outputEnable p => exact .bind (.bind (hfield _) fun _ => .pure _) fun _ => .pure _
  | function p => exact .bind (.bind (hfield _) fun _ => .pure _) fun _ => .pure _
  | fifoMode => exact .bind (.bind (hfield _) fun _ => .pure _) fun _ => .pure _
  | fifoWatermark => exact .bind (Converter.getWide_never _) fun _ => .pure _
  | hysteresis => exact .bind (Converter.getWide_never _) fun _ => .pure _
  | threshold t => exact .bind (Converter.getSigned_never _) fun _ => .pure _
  | filterSelect => exact .bind (.bind (hfield _) fun _ => .pure _) fun _ => .pure _
  | sincRate => exact .bind (hfield _) fun _ => .pure _
  | deviceMode => exact .bind (.bind (hfield _) fun _ => .pure _) fun _ => .pure _

end Attribute

namespace Driver

open AdcCapture.Action (NeverInvalid)

theorem fitting_never {σ : Type} (room : Option Nat) (s : String) :
    (fitting room s : Call σ String).NeverInvalid := by
  unfold fitting
  cases room with
  | none => exact .pure _
  | some n =>
    dsimp only
    split
    · exact .fail fun h => nomatch h
    · exact .pure _

variable {σ : Type} [Sink δ] (b : Part σ Board) (q : Part σ δ)

theorem writeBlock_never (block : List UInt32) : (writeBlock b q block).NeverInvalid := by
  refine .bind .state fun s => .bind (.update _) fun _ => .bind (.within (.update _)) fun _ => ?_
  split
  · exact .pure ()
  · exact .fail fun h => nomatch h

theorem writeBlocks_never (blocks : List (List UInt32)) :
    (writeBlocks b q blocks).NeverInvalid := by
  induction blocks with
  | nil => exact .pure ()
  | cons block rest ih => exact .bind (writeBlock_never b q block) fun _ => ih

theorem deliver_never (samples : List UInt32) : (deliver b q samples).NeverInvalid := by
  rw [deliver_eq]
  have hwrite : ∀ (room needed : Nat) blocks, (if room < needed then .fail .bufferFull
      else writeBlocks b q blocks : Call σ Unit).NeverInvalid := by
    intro room needed blocks
    split
    · exact .fail fun h => nomatch h
    · exact writeBlocks_never b q blocks
  refine .bind .state fun s => ?_
  dsimp only
  split
  · exact .bind (.within (.update _)) fun _ => hwrite _ _ _
  · exact hwrite _ _ _

/-! ## Calls that refuse up front -/

theorem onBoard_first {α : Type} {a : Call Board α} (ha : a.RefusesFirst) :
    (onBoard a).RefusesFirst := .within (fun _ => rfl) ha

theorem setWatermark_first (n : Nat) : (setWatermark n).RefusesFirst := by
  refine .state_bind fun d => ?_
  split
  · exact .fail _
  · exact .within (fun _ => rfl) (Fifo.setWatermark_first n)

/-- After a change of the watermark there are buffers. -/
theorem setWatermark_sized {n : Nat} {d e : Driver} (h : setWatermark n d = (.ok (), e)) :
    e.fifo.buffers.isSome = true := by
  cases hc : d.capture with
  | armed =>
    rw [setWatermark_armed hc] at h
    cases h
  | idle =>
    have hends := Fifo.setWatermark_ends n d.fifo
    rcases hrun : Fifo.setWatermark n d.fifo with ⟨o, f⟩
    rw [setWatermark_idle hc, onFifo_eq hrun] at h
    rw [hrun] at hends
    cases h
    cases hends
    rfl

end Driver

/-! ## Captures -/

namespace Scene

/-- Nothing happened to the driver but that messages were logged, and nothing to the sinks. -/
structure Untouched (s t : Scene δ) : Prop where
  driver : s.driver.Untouched t.driver
  sinks : t.sinks = s.sinks

variable {s t : Scene δ}

theorem untouched_of_first {α : Type} {a : Call Driver α} (ha : a.RefusesFirst)
    (h : Action.within driverPart a s = (.error .invalidArgument, t)) : Untouched s t := by
  obtain ⟨d, hrun, rfl⟩ := Action.of_within_error _ h
  cases ha _ _ hrun
  exact ⟨.refl s.driver, rfl⟩

/-- Whatever a capture that could be begun comes back with, it is not an invalid argument. -/
theorem CaptureEnds.valid {d : Driver} {l : List (Driver × Driver)} {o : Outcome Cause Unit}
    (h : CaptureEnds d t l o) : o ≠ .error .invalidArgument := by
  cases h <;> exact nofun

variable [Sink δ]

/-- A capture refuses its argument only if there are no buffers, and then nothing happened. -/
theorem captureOn_untouched (h : s.driver.Sound) {ds : List Driver}
    (hj : s.journal = ds.map Entry.passed) {afterArm afterWait : List (Operation δ)}
    (hrun : Driver.captureOn driverPart (Operation.during afterArm afterWait) s =
        (.error .invalidArgument, t)) :
    s.driver.fifo.buffers = none ∧ Untouched s t := by
  cases hc : s.driver.capture with
  | armed =>
    rw [captureOn_error _ (Driver.beginCapture_armed hc)] at hrun
    cases hrun
  | idle =>
    cases hb : s.driver.fifo.buffers with
    | none =>
      rw [captureOn_error _ (Driver.beginCapture_unsized hc hb)] at hrun
      cases hrun
      exact ⟨rfl, ⟨⟨[], rfl⟩, rfl, hc.symm, rfl, (h.unsigned hc).symm⟩, rfl⟩
    | some b =>
      have hsized : s.driver.fifo.buffers.isSome = true := by
        rw [hb]
        rfl
      obtain ⟨hends, -⟩ := captureOn_closes h hc hsized hj afterArm afterWait
      rw [hrun] at hends
      exact absurd rfl hends.valid

/-- After a capture that ends well there is a sample. -/
theorem captureOn_samples (h : s.driver.Sound) {ds : List Driver}
    (hj : s.journal = ds.map Entry.passed) {afterArm afterWait : List (Operation δ)}
    (hrun : Driver.captureOn driverPart (Operation.during afterArm afterWait) s = (.ok (), t)) :
    ∃ w, t.driver.samples[0]? = some w := by
  cases hc : s.driver.capture with
  | armed =>
    rw [captureOn_error _ (Driver.beginCapture_armed hc)] at hrun
    cases hrun
  | idle =>
    cases hb : s.driver.fifo.buffers with
    | none =>
      rw [captureOn_error _ (Driver.beginCapture_unsized hc hb)] at hrun
      cases hrun
    | some b =>
      have hsized : s.driver.fifo.buffers.isSome = true := by
        rw [hb]
        rfl
      obtain ⟨-, hrest, -⟩ := captureOn_closes h hc hsized hj afterArm afterWait
      rw [hrun] at hrest
      have hwatermark := hrest.watermark.trans (Driver.watermark_of_buffers hb)
      have hpos := (h.shaped b hb).one_le
      obtain ⟨c, hc⟩ := Option.isSome_iff_exists.mp hrest.sized
      have hsize : t.driver.samples.size = b.watermark := by
        rw [← hwatermark, Driver.watermark_of_buffers hc]
        unfold Driver.samples Fifo.samples
        rw [hc]
        rfl
      exact ⟨_, Array.getElem?_eq_getElem (by omega)⟩

/-! ## Operations -/

theorem submitOn_untouched (h : s.driver.Sound) {ds : List Driver}
    (hj : s.journal = ds.map Entry.passed) {i n : Nat} {afterArm afterWait : List (Operation δ)}
    (hrun : Driver.submitOn driverPart (sinkPart i) (Operation.during afterArm afterWait) n s =
        (.error .invalidArgument, t)) : Untouched s t := by
  have hcaptured : ∀ {u : Scene δ}, (do
      Driver.captureOn driverPart (Operation.during afterArm afterWait)
      Driver.deliver boardPart (sinkPart i) (driverPart.get (← Action.state)).samples.toList :
        Call (Scene δ) Unit) u = (.error .invalidArgument, t) →
      Driver.captureOn driverPart (Operation.during afterArm afterWait) u =
        (.error .invalidArgument, t) := by
    intro u hu
    rcases Action.of_bind_error _ hu with hu | ⟨_, v, -, hdeliver⟩
    · exact hu
    · exact absurd hdeliver (Driver.deliver_never _ _ _ v t)
  unfold Driver.submitOn at hrun
  rw [Action.state_bind] at hrun
  split at hrun
  · exact (captureOn_untouched h hj (hcaptured hrun)).2
  · rcases Action.of_bind_error _ hrun with hresize | ⟨_, u, hresize, hrest⟩
    · exact untouched_of_first (Driver.setWatermark_first n) hresize
    · obtain ⟨d, hset, rfl⟩ := Action.of_within_ok _ hresize
      have hd := (Driver.setWatermark_obeys n s.driver h).inv
      rw [show Driver.setWatermark n s.driver = (.ok (), d) from hset] at hd
      have hpassed : (s.pass d).journal = (d :: ds).map Entry.passed :=
        congrArg (List.cons (Entry.passed d)) hj
      have hnone := (captureOn_untouched (s := s.pass d) hd hpassed (hcaptured hrest)).1
      have hsized := Driver.setWatermark_sized hset
      rw [show d.fifo.buffers = none from hnone] at hsized
      cases hsized

theorem showAttributeOn_untouched (h : s.driver.Sound) {ds : List Driver}
    (hj : s.journal = ds.map Entry.passed) {index : Nat} {room : Option Nat}
    {afterArm afterWait : List (Operation δ)}
    (hrun : Driver.showAttributeOn driverPart (Operation.during afterArm afterWait) index room s =
        (.error .invalidArgument, t)) : Untouched s t := by
  unfold Driver.showAttributeOn at hrun
  cases hindex : Attribute.ofIndex? index with
  | none =>
    rw [hindex] at hrun
    cases hrun
    exact ⟨.refl s.driver, rfl⟩
  | some a =>
    rw [hindex] at hrun
    rcases Action.of_bind_error _ hrun with htext | ⟨text, u, -, hfit⟩
    · by_cases ha : a = .raw
      · subst ha
        rcases Action.of_bind_error _ htext with hcapture | ⟨_, u, hcapture, hshow⟩
        · exact (captureOn_untouched h hj hcapture).2
        · obtain ⟨w, hw⟩ := captureOn_samples h hj hcapture
          rw [Action.state_bind] at hshow
          rw [show (driverPart.get u).samples[0]? = some w from hw] at hshow
          cases hshow
      · have hboard : a.textOn driverPart (Operation.during afterArm afterWait) =
              Action.within boardPart a.registerText := by
          cases a with
          | raw => exact absurd rfl ha
          | _ => rfl
        rw [hboard] at htext
        exact absurd htext (Action.NeverInvalid.within (Attribute.registerText_never ha) s t)
    · exact absurd hfit (Driver.fitting_never _ _ u t)

end Scene

/-- If an operation on a sound driver refuses its argument, nothing happened. -/
theorem Operation.call_untouched [Sink δ] {d : Driver} (h : d.Sound) (sinks : Nat → δ)
    (op : Operation δ) {t : Scene δ}
    (hrun : op.call (Scene.start d sinks) = (.error .invalidArgument, t)) :
    Scene.Untouched (Scene.start d sinks) t := by
  have hj : (Scene.start d sinks).journal = [d].map Entry.passed := rfl
  cases op with
  | disturb x => cases hrun
  | changeSink i f => cases hrun
  | converter s => exact Scene.untouched_of_first (Driver.onBoard_first s.asCall_first) hrun
  | interrupt =>
    have hnever : ((Action.within Scene.driverPart Driver.onInterrupt).mapError Empty.elim :
        Call (Scene δ) Unit).NeverInvalid := .mapError fun e => e.elim
    exact absurd hrun (hnever _ _)
  | capture afterArm afterWait => exact (Scene.captureOn_untouched h hj hrun).2
  | submit n i afterArm afterWait => exact Scene.submitOn_untouched h hj hrun
  | setWatermark n => exact Scene.untouched_of_first (Driver.setWatermark_first n) hrun
  | setTimeout polls => cases hrun
  | showAttribute index room afterArm afterWait =>
    rcases Action.of_bind_error _ hrun with hshow | ⟨_, u, -, hend⟩
    · exact Scene.showAttributeOn_untouched h hj hshow
    · cases hend
  | storeAttribute index input =>
    obtain ⟨e, hstore, rfl⟩ := Action.of_within_error _ hrun
    have hends := Driver.storeAttribute_input h index input
    rw [show Driver.storeAttribute index input d = (.error .invalidArgument, e) from hstore]
      at hends
    cases hends with
    | refused _ huntouched => exact ⟨huntouched, rfl⟩
    | taken _ _ hstored => exact absurd rfl hstored.valid
  | readDocumented a =>
    rcases Action.of_bind_error _ hrun with hread | ⟨_, u, -, hend⟩
    · have hfirst := Driver.onBoard_first (Converter.readDocumented_first a)
      exact Scene.untouched_of_first hfirst hread
    · cases hend
  | writeDocumented a v =>
    have hfirst := Driver.onBoard_first (Converter.writeDocumented_first a v)
    exact Scene.untouched_of_first hfirst hrun

/-- At every layer, a call that says that its argument is invalid has done nothing. Of a driver that
some run has left, nothing is changed but that messages are logged, and nothing is written to a
sink; a descriptor and a board are as they were before, whatever they were. -/
theorem invalidArgument_untouched :
    (∀ {δ : Type} [Sink δ] {d : Driver}, d.Reachable →
      ∀ (sinks : Nat → δ) (op : Operation δ) (t : Scene δ),
        op.call (Scene.start d sinks) = (.error .invalidArgument, t) →
          d.Untouched t.driver ∧ t.sinks = sinks) ∧
      (∀ (f : Fifo) (s : FifoStep),
        (s.run f).1.answer = .failure .invalidArgument → (s.run f).2 = f) ∧
      ∀ (b : Board) (s : ConverterStep),
        (s.run b).1 = .failure .invalidArgument → (s.run b).2 = b := by
  refine ⟨fun h sinks op t hrun => ?_, fun f s => s.run_refused, fun b s h => ?_⟩
  · obtain ⟨hdriver, hsinks⟩ := op.call_untouched h.sound sinks hrun
    exact ⟨hdriver, hsinks⟩
  · exact s.run_refused b _ (Prod.ext h rfl)

/-- A submission of no samples, when a change of the watermark has failed and left no buffers: it is
the capture inside of it that refuses. -/
theorem invalidArgument_untouched_unsized :
    ∃ d₀, (Driver.init { watermark := 2 } ((Board.probed []).stumbling 14)).1 = .ok d₀ ∧
      let sinks : Nat → Store := fun _ => { capacity := 64 }
      let d := (Operation.runAll [.setWatermark 259] (Scene.start d₀ sinks)).driver
      let x := (Operation.submit 0 0 [.interrupt] []).call (Scene.start d sinks)
      d.watermark = 0 ∧ x.1 = .error .invalidArgument ∧ d.Untouched x.2.driver ∧
        x.2.sinks = sinks ∧ ((FifoStep.setWatermark 16385).run d.fifo).2 = d.fifo ∧
        ((ConverterStep.setOffset 2048).run d.fifo.board).2 = d.fifo.board := by
  have hrun : ((Driver.init { watermark := 2 } ((Board.probed []).stumbling 14)).1.map fun d₀ =>
      let sinks : Nat → Store := fun _ => { capacity := 64 }
      let d := (Operation.runAll [.setWatermark 259] (Scene.start d₀ sinks)).driver
      let x := (Operation.submit 0 0 [.interrupt] []).call (Scene.start d sinks)
      (d.watermark, x.1)) = .ok (0, .error .invalidArgument) := by decide +kernel
  obtain ⟨d₀, hinit, hrun⟩ := Outcome.of_map_ok hrun
  refine ⟨d₀, hinit, ?_⟩
  intro sinks d x
  obtain ⟨hwatermark, hinvalid⟩ := Prod.mk.inj hrun
  have hd : d.Reachable := by
    refine ⟨Store, inferInstance, _, _, d₀, sinks, [.setWatermark 259], hinit, ?_⟩
    exact List.mem_cons_of_mem _ List.mem_cons_self
  obtain ⟨hdriver, hfifo, hboard⟩ := invalidArgument_untouched
  obtain ⟨huntouched, hsinks⟩ := hdriver hd sinks _ x.2 (Prod.ext hinvalid rfl)
  refine ⟨hwatermark, hinvalid, huntouched, hsinks, hfifo d.fifo _ ?_, hboard d.fifo.board _ rfl⟩
  have hrefused : Fifo.setWatermark 16385 d.fifo = (.error .invalidArgument, d.fifo) := by
    unfold Fifo.setWatermark
    rw [Action.state_bind, decide_eq_true (show fifoDepth < 16385 by decide), Bool.or_true]
    rfl
  change (FifoStep.call (Fifo.setWatermark 16385) d.fifo).1.answer = _
  unfold FifoStep.call
  rw [hrefused]
  rfl

end AdcCapture
