/-
  What holds of a descriptor at every moment of every run. The sizes of its buffers belong to one
  watermark, its samples are words of three bytes, and a descriptor that has been finalised only
  fades: it is never live again, and it can lose its buffers and its binding but gets no new ones
  (`Fifo.Fades`). One call of each kind keeps to this, so every step does, with the steps of a
  consumer inside; and the only assertion that a step can break is that an interrupt reaches a
  finalised descriptor (`FifoStep.Reaches.descriptor_invariant`).
-/
import AdcCapture.Proofs.Refusals

namespace AdcCapture

/-- A sample is a word of three bytes. -/
theorem Sample.ofBytes_lt (high middle low : UInt8) :
    (Sample.ofBytes high middle low).toNat < 1 <<< 24 := by
  have hhigh := high.toNat_lt
  have hmiddle := middle.toNat_lt
  have hlow := low.toNat_lt
  unfold ofBytes
  rw [UInt32.toNat_ofNat', Nat.shiftLeft_eq, Nat.shiftLeft_eq, Nat.shiftLeft_eq]
  omega

namespace Fifo

/-! ## Sizes and samples -/

/-- The sizes that a descriptor shows belong to one watermark: there are no buffers, or buffers for
that many samples. -/
def InStep (f : Fifo) : Prop :=
  (f.watermark = 0 ∧ f.rawSize = 0 ∧ f.formattedSize = 0 ∧ f.samples = #[]) ∨
    ∃ w, 1 ≤ w ∧ w ≤ 16384 ∧ f.watermark = w ∧ f.rawSize = 3 * w + 1 ∧ f.formattedSize = 4 * w ∧
      f.samples.size = w

/-- No sample has more than 24 bits. -/
def Packed (f : Fifo) : Prop := ∀ w ∈ f.samples, w.toNat < 1 <<< 24

theorem Shaped.inStep {f : Fifo} (h : f.Shaped) : f.InStep := by
  unfold InStep watermark rawSize formattedSize samples
  cases hb : f.buffers with
  | none => exact .inl ⟨rfl, rfl, rfl, rfl⟩
  | some b =>
    have hshaped := h b hb
    have hbytes : b.rawSize = 3 * b.watermark + 1 := hshaped.rawSize_eq
    exact .inr ⟨b.watermark, hshaped.one_le, hshaped.le_depth, rfl, hbytes, Nat.mul_comm _ _, rfl⟩

theorem packed_of_none {f : Fifo} (h : f.buffers = none) : f.Packed := by
  unfold Packed samples
  rw [h]
  exact fun w hw => absurd hw (Array.not_mem_empty w)

theorem packed_of_alike {f g : Fifo} (h : f.Packed) (hb : g.buffers = f.buffers) : g.Packed := by
  unfold Packed samples at h ⊢
  rw [hb]
  exact h

theorem packed_blank {f : Fifo} {w : Nat} (h : f.buffers = some (.blank w)) : f.Packed := by
  unfold Packed samples
  rw [h]
  intro x hx
  rw [(Array.mem_replicate.mp hx).2]
  decide

theorem packed_words {f : Fifo} {raw : Array UInt8} {n : Nat}
    (h : f.buffers = some ⟨raw, Sample.words raw n⟩) : f.Packed := by
  unfold Packed samples
  rw [h]
  intro x hx
  obtain ⟨i, rfl⟩ := Array.mem_ofFn.mp hx
  exact Sample.ofBytes_lt _ _ _

/-! ## Fading -/

/-- A descriptor that has been finalised stays so, and gets neither buffers nor a binding that it
did not have. -/
structure Fades (f g : Fifo) : Prop where
  live : f.live = false → g.live = false
  watermark : f.live = false → g.watermark = f.watermark ∨ g.watermark = 0
  binding : f.live = false → g.binding = f.binding ∨ g.binding = none

theorem Fades.refl (f : Fifo) : f.Fades f := ⟨id, fun _ => .inl rfl, fun _ => .inl rfl⟩

theorem Fades.trans {f g h : Fifo} (hg : f.Fades g) (hh : g.Fades h) : f.Fades h where
  live hf := hh.live (hg.live hf)
  watermark hf := by
    rcases hh.watermark (hg.live hf) with hsame | hzero
    · exact hsame ▸ hg.watermark hf
    · exact .inr hzero
  binding hf := by
    rcases hh.binding (hg.live hf) with hsame | hnone
    · exact hsame ▸ hg.binding hf
    · exact .inr hnone

theorem Fades.of_live {f g : Fifo} (h : f.live = true) : f.Fades g where
  live hf := nomatch h.symm.trans hf
  watermark hf := nomatch h.symm.trans hf
  binding hf := nomatch h.symm.trans hf

/-- Buffers of one watermark with small samples, in a descriptor that at most fades once it was
finalised. -/
def fading : Contract Fifo where
  inv f := f.Shaped ∧ f.Packed
  allows := Fades
  refl := Fades.refl
  trans := Fades.trans

section Fading

variable {ε α : Type}

theorem onBoard_fading {a : Action Board ε α} (ha : a.Obeys Board.Rules.lax.contract) :
    (onBoard a).Obeys fading :=
  .within ha (fun _ _ => trivial) fun _ _ hf _ _ =>
    ⟨hf, id, fun _ => .inl rfl, fun _ => .inl rfl⟩

theorem disable_fading : disable.Obeys fading :=
  onBoard_fading (Board.Rules.free_lax.setField _ _)

theorem arm_fading : arm.Obeys fading := arm_admitted onBoard_fading trivial

theorem unsetWatermark_fading : unsetWatermark.Obeys fading :=
  unsetWatermark_admitted onBoard_fading (.update fun _ _ =>
    ⟨⟨fun _ hb => (nomatch hb), packed_of_none rfl⟩, id, fun _ => .inr rfl, fun _ => .inl rfl⟩)
    trivial

theorem setWatermark_fading (w : Nat) : (setWatermark w).Obeys fading := by
  intro f hf
  obtain ⟨hsure, hshaped, -⟩ := setWatermark_steady Board.Rules.free_lax w f hf.1
  have hends := setWatermark_ends w f
  cases hlive : f.live with
  | false =>
    rw [setWatermark_refused (.inl hlive)]
    exact .here hf rfl
  | true =>
    refine ⟨hsure, ⟨hshaped, ?_⟩, .of_live hlive⟩
    generalize setWatermark w f = x at hends
    cases hends with
    | refused => exact hf.2
    | undisabled => exact packed_of_none rfl
    | noMemory => exact packed_of_none rfl
    | unprogrammed => exact packed_of_none rfl
    | done => exact packed_blank rfl

theorem readSamples_fading : readSamples.Obeys fading := by
  intro f hf
  obtain ⟨hsure, hshaped, hlive, hwatermark, -⟩ := readSamples_keeps hf.1
  obtain ⟨-, -, hbinding, -⟩ := readSamples_steady Board.Rules.free_lax f hf.1
  refine ⟨hsure, ⟨hshaped, ?_⟩, fun h => hlive.trans h, fun _ => .inl hwatermark,
    fun _ => .inl hbinding⟩
  cases hb : f.buffers with
  | none =>
    unfold readSamples
    rw [Action.state_bind, hb]
    exact hf.2
  | some b =>
    rw [readSamples_eq hb (hf.1 b hb).rawSize_eq]
    rcases Converter.readData b.rawSize f.board with ⟨o, c⟩
    cases o with
    | ok raw => exact packed_words rfl
    | error e => exact packed_of_alike hf.2 rfl
    | fault x => exact packed_of_alike hf.2 rfl

theorem registerIrq_refused {f : Fifo} (h : f.live = false) (i : Nat) :
    registerIrq i f = (.error .invalidArgument, f) := by
  unfold registerIrq
  rw [Action.state_bind, h]
  rfl

theorem registerIrq_fading (i : Nat) : (registerIrq i).Obeys fading := by
  intro f hf
  obtain ⟨hsure, hshaped, -⟩ := registerIrq_obeys (R := .lax) i
    ⟨fun _ => trivial, fun _ => trivial, fun _ => trivial⟩ f hf.1
  have hends := registerIrq_ends i f
  cases hlive : f.live with
  | false =>
    rw [registerIrq_refused hlive]
    exact .here hf rfl
  | true =>
    refine ⟨hsure, ⟨hshaped, packed_of_alike hf.2 ?_⟩, .of_live hlive⟩
    generalize registerIrq i f = x at hends
    cases hends <;> rfl

theorem unregisterIrq_fading : unregisterIrq.Obeys fading := by
  intro f hf
  cases hb : f.binding with
  | none =>
    unfold unregisterIrq
    rw [Action.state_bind, hb]
    exact .here hf rfl
  | some x =>
    obtain ⟨o, c, back, hrun, hsure, -⟩ := unregisterIrq_ends hb
    rw [hrun]
    exact ⟨hsure, hf, id, fun _ => .inl rfl, fun _ => .inr rfl⟩

end Fading

end Fifo

namespace FifoStep

open Fifo (Fades fading)

/-! ## Steps -/

/-- What a step may do to a descriptor: the invariant is kept, and one that was finalised fades. -/
structure Keeps (f g : Fifo) : Prop where
  inv : fading.inv g
  fades : f.Fades g

variable {f g h : Fifo}

theorem Keeps.trans (hg : Keeps f g) (hh : Keeps g h) : Keeps f h :=
  ⟨hh.inv, hg.fades.trans hh.fades⟩

theorem keeps_refl (hf : fading.inv f) : Keeps f f := ⟨hf, .refl f⟩

theorem keeps_board (hf : fading.inv f) (b : Board) : Keeps f { f with board := b } :=
  ⟨hf, id, fun _ => .inl rfl, fun _ => .inl rfl⟩

theorem keeps_call {a : Call Fifo Unit} (ha : a.Obeys fading) (hf : fading.inv f) :
    Keeps f (call a f).2 := ⟨(ha f hf).inv, (ha f hf).allowed⟩

/-- An interrupt keeps what its consumer keeps. -/
theorem keeps_handle {body : Fifo → List FifoReply × Fifo}
    (hbody : ∀ g, fading.inv g → Keeps g (body g).2) (hf : fading.inv f) :
    Keeps f (handle body f).2 := by
  have hends := handle_ends body f
  generalize (handle body f).2 = g at hends
  cases hends with
  | dead => exact keeps_refl hf
  | unasked => exact keeps_board hf _
  | spurious => exact keeps_board hf _
  | @full b _ _ =>
    have hbegun : Keeps f (markEvent (.enter .consumer) { f with board := b }) := keeps_board hf _
    have hconsumed := hbody _ hbegun.inv
    generalize (body (markEvent (.enter .consumer) { f with board := b })).2 = g at hconsumed ⊢
    have hended : Keeps g (markEvent (.leave .consumer) g) := keeps_board hconsumed.inv _
    exact ((hbegun.trans hconsumed).trans hended).trans
      (keeps_call Fifo.disable_fading hended.inv)

mutual

/-- Every step keeps the invariant, with the steps of a consumer inside. -/
theorem run_keeps : ∀ (s : FifoStep) {f : Fifo}, fading.inv f → Keeps f (s.run f).2
  | board _, _, hf => keeps_board hf _
  | converter _, _, hf => keeps_board hf _
  | setWatermark w, _, hf => (keeps_call (Fifo.setWatermark_fading w) hf :)
  | unsetWatermark, _, hf => (keeps_call Fifo.unsetWatermark_fading hf :)
  | arm, _, hf => (keeps_call Fifo.arm_fading hf :)
  | disable, _, hf => (keeps_call Fifo.disable_fading hf :)
  | readSamples, _, hf => (keeps_call Fifo.readSamples_fading hf :)
  | registerIrq i, _, hf => (keeps_call (Fifo.registerIrq_fading i) hf :)
  | unregisterIrq, _, hf => (keeps_call Fifo.unregisterIrq_fading hf :)
  | finalise, _, hf => ⟨hf, fun _ => rfl, fun _ => .inl rfl, fun _ => .inl rfl⟩
  | samples _ _, _, hf => keeps_refl hf
  | interrupt consumer, _, hf => keeps_handle (fun _ hg => runAll_keeps consumer hg) hf

theorem runAll_keeps :
    ∀ (steps : List FifoStep) {f : Fifo}, fading.inv f → Keeps f (runAll steps f).2
  | [], _, hf => keeps_refl hf
  | s :: rest, _, hf => (run_keeps s hf).trans (runAll_keeps rest (run_keeps s hf).inv)

end

/-- A state that was reached from one of which the invariant holds is kept to as well. -/
theorem Reaches.keeps (hg : Reaches f g) (hf : fading.inv f) : Keeps f g := by
  induction hg with
  | here => exact keeps_refl hf
  | step _ s ih => exact ih.trans (run_keeps s ih.inv)
  | entered _ _ _ ih => exact ih.trans (keeps_board ih.inv _)

/-! ## Faults -/

theorem call_sure {a : Call Fifo Unit} (ha : a.Obeys fading) (hf : fading.inv f) (x : Fault) :
    (call a f).1.answer ≠ .fault x := by
  have hsure := (ha f hf).sure
  unfold call
  rcases hrun : a f with ⟨o, g⟩
  rw [hrun] at hsure
  cases o with
  | ok _ => exact nofun
  | error e => exact nofun
  | fault y => cases hsure

theorem converter_sure (s : ConverterStep) (f : Fifo) (x : Fault) :
    ((converter s).run f).1.answer ≠ .fault x := by
  have hsure := (s.run_obeys Board.Rules.free_lax f.board trivial).sure
  change (s.run f.board).1 ≠ .fault x
  unfold Answer.asCall at hsure
  rcases hrun : s.run f.board with ⟨o, b⟩
  rw [hrun] at hsure
  rintro rfl
  cases hsure

/-- An interrupt breaks an assertion if, and only if, the descriptor was finalised. -/
theorem handle_fault (body : Fifo → List FifoReply × Fifo) (f : Fifo) (x : Fault) :
    (handle body f).1.answer = .fault x ↔ x = .deadDescriptor ∧ f.live = false := by
  unfold handle
  constructor
  · rcases hrun : Fifo.handleInterrupt Handling.fifoPart (consumerOf body) { fifo := f } with ⟨o, t⟩
    intro hx
    cases o with
    | ok _ => cases hx
    | error e => cases hx
    | fault y =>
      cases hx
      rcases Fifo.handleInterrupt_fault Handling.lawful_fifoPart hrun with hdead | ⟨b, hconsumer⟩
      · exact hdead
      · cases hconsumer
  · rintro ⟨rfl, hdead⟩
    have hfault : Fifo.handleInterrupt Handling.fifoPart (consumerOf body) { fifo := f } =
        (.fault .deadDescriptor, { fifo := f }) := Fifo.handleInterrupt_dead hdead
    rw [hfault]
    rfl

/-- The only assertion that a step can break is that an interrupt reaches a finalised descriptor. -/
theorem run_fault (s : FifoStep) (hf : fading.inv f) (x : Fault) :
    (s.run f).1.answer = .fault x ↔
      x = .deadDescriptor ∧ f.live = false ∧ ∃ consumer, s = interrupt consumer := by
  have hother : ∀ {s : FifoStep}, (s.run f).1.answer ≠ .fault x →
      (∀ consumer, s ≠ interrupt consumer) → ((s.run f).1.answer = .fault x ↔
        x = .deadDescriptor ∧ f.live = false ∧ ∃ consumer, s = interrupt consumer) :=
    fun hsure hs => ⟨fun h => absurd h hsure, fun ⟨_, _, consumer, hc⟩ => absurd hc (hs consumer)⟩
  cases s with
  | board s => exact hother (by cases s <;> exact nofun) nofun
  | converter s => exact hother (converter_sure s f x) nofun
  | setWatermark w => exact hother (call_sure (Fifo.setWatermark_fading w) hf x) nofun
  | unsetWatermark => exact hother (call_sure Fifo.unsetWatermark_fading hf x) nofun
  | arm => exact hother (call_sure Fifo.arm_fading hf x) nofun
  | disable => exact hother (call_sure Fifo.disable_fading hf x) nofun
  | readSamples => exact hother (call_sure Fifo.readSamples_fading hf x) nofun
  | registerIrq i => exact hother (call_sure (Fifo.registerIrq_fading i) hf x) nofun
  | unregisterIrq => exact hother (call_sure Fifo.unregisterIrq_fading hf x) nofun
  | finalise => exact hother nofun nofun
  | samples start count => exact hother nofun nofun
  | interrupt consumer =>
    rw [show ((interrupt consumer).run f).1 = (handle (fun g => runAll consumer g) f).1 from rfl,
      handle_fault]
    exact ⟨fun ⟨hx, hdead⟩ => ⟨hx, hdead, consumer, rfl⟩, fun ⟨hx, hdead, _⟩ => ⟨hx, hdead⟩⟩

/-- At every moment of every run of a descriptor, whatever of the bus, the platform and the
allocator fails, also inside of the consumers of interrupts: the sizes belong to one watermark and
there are as many samples; no sample has more than 24 bits; a step breaks an assertion only if it
is an interrupt and the descriptor has been finalised, and so does an interrupt with any consumer
that breaks none itself; finalising ends the life of the descriptor, and from then on it is never
live again, its watermark stays or becomes 0, and no binding is added. -/
theorem Reaches.descriptor_invariant {b : Board} (hf : Reaches { board := b } f) :
    f.InStep ∧ (∀ w ∈ f.samples, w.toNat < 1 <<< 24) ∧
    (∀ (s : FifoStep) x, (s.run f).1.answer = .fault x ↔
      x = .deadDescriptor ∧ f.live = false ∧ ∃ consumer, s = interrupt consumer) ∧
    (∀ consumer x g, Fifo.handleInterrupt (.whole Fifo) consumer f = (.fault x, g) →
      (x = .deadDescriptor ∧ f.live = false) ∨
        ∃ c, consumer { f with board := c } = (.fault x, g)) ∧
    (finalise.run f).2.live = false ∧
    (f.live = false → ∀ g, Reaches f g → g.live = false ∧
      (g.watermark = f.watermark ∨ g.watermark = 0) ∧
      (g.binding = f.binding ∨ g.binding = none)) := by
  have hinv : fading.inv f :=
    (hf.keeps ⟨fun _ hb => (nomatch hb), Fifo.packed_of_none rfl⟩).inv
  refine ⟨hinv.1.inStep, hinv.2, fun s x => run_fault s hinv x, fun consumer x g hrun => ?_, rfl,
    fun hdead g hg => ?_⟩
  · exact Fifo.handleInterrupt_fault (Part.lawful_whole Fifo) hrun
  · have hfades := (hg.keeps hinv).fades
    exact ⟨hfades.live hdead, hfades.watermark hdead, hfades.binding hdead⟩

/-- A descriptor that its own consumer has finalised keeps its two samples, until they are given
back, and stays bound, until it is unbound. -/
theorem Reaches.descriptor_invariant_finalised :
    let b : Board := { registers := RegisterFile.empty.set Register.deviceStatus 0x80
                       fifo := #[0, 1, 2, 3, 0xFF, 0xFF, 0xFF] }
    let f := ((interrupt [.readSamples, .finalise]).run
      ((registerIrq 1).run ((setWatermark 2).run { board := b }).2).2).2
    f.InStep ∧ f.samples = #[0x010203, 0xFFFFFF] ∧ (∀ w ∈ f.samples, w.toNat < 1 <<< 24) ∧
      ((interrupt [.arm]).run f).1.answer = .fault .deadDescriptor ∧
      (arm.run f).1.answer ≠ .fault .deadDescriptor ∧
      ∀ g, Reaches f g → g.live = false ∧ (g.watermark = 2 ∨ g.watermark = 0) ∧
        (g.binding = some ⟨.gp1, 7⟩ ∨ g.binding = none) := by
  intro b f
  have hreached : Reaches { board := b } f := .step (.step (.step .here _) _) _
  obtain ⟨hsamples, hdead, hwatermark, hbinding⟩ : f.samples = #[0x010203, 0xFFFFFF] ∧
      f.live = false ∧ f.watermark = 2 ∧ f.binding = some ⟨.gp1, 7⟩ := by decide +kernel
  obtain ⟨hsteps, hpacked, hfault, -, -, hfades⟩ := hreached.descriptor_invariant
  rw [hwatermark, hbinding] at hfades
  refine ⟨hsteps, hsamples, hpacked, (hfault _ _).mpr ⟨rfl, hdead, _, rfl⟩, fun h => ?_,
    hfades hdead⟩
  obtain ⟨-, -, consumer, hc⟩ := (hfault _ _).mp h
  cases hc

end FifoStep

end AdcCapture
