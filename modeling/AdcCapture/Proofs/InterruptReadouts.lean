/-
  What interrupts do during a capture. `Board.readouts` counts the readouts of the FIFO, failed
  ones too. The first interrupt that finds the FIFO full while a capture waits reads it once and
  publishes how that went (`interrupted_published`); any other interrupt reads nothing and changes
  neither the completion nor the buffers (`interrupted_quiet`). So a capture that has seen some
  interrupts is at one of two points, and `Progress` says which; an interrupt carries it on
  (`Progress.interrupt`).
-/
import AdcCapture.Proofs.DriverCalls

namespace AdcCapture

/-! ## Readouts -/

namespace Board

/-- The number of readouts of the FIFO so far, failed ones counted. -/
def readouts (b : Board) : Nat := b.record.countP Event.readsFifo

namespace Rules

/-- A call never takes a readout back. -/
def growing : Rules where
  permits _ := True
  allows b c := b.readouts ≤ c.readouts
  refl _ := Nat.le_refl _
  trans := Nat.le_trans
  counted _ := Nat.le_refl _
  noted _ _ _ _ := List.Sublist.countP_le (List.sublist_cons_self _ _)
  written _ _ _ _ := Nat.le_refl _
  called _ _ _ _ _ := List.Sublist.countP_le (List.sublist_cons_self _ _)
  reserved _ _ _ := Nat.le_refl _

theorem free_growing : growing.Free := fun _ _ => trivial

/-- No readout of the FIFO is made. -/
def quiet : Rules where
  permits x := x ≠ .readFifo
  allows b c := c.readouts = b.readouts
  refl _ := rfl
  trans h h' := h'.trans h
  counted _ := rfl
  noted _ _ hread _ := List.countP_cons_of_neg fun h => hread h rfl
  written _ _ _ _ := rfl
  called _ _ _ _ _ := List.countP_cons_of_neg Bool.false_ne_true
  reserved _ _ _ := rfl

end Rules

theorem readouts_noted (m : Message) (b : Board) : (b.noted m).readouts = b.readouts :=
  List.countP_cons_of_neg Bool.false_ne_true

theorem readouts_setFifoMode (m : FifoMode) (b : Board) :
    (Converter.setFifoMode m b).2.readouts = b.readouts :=
  (Rules.quiet.setFifoMode m (fun h => nomatch h) b trivial).allowed

theorem readouts_fifoFull (b : Board) : (Converter.fifoFull b).2.readouts = b.readouts :=
  (Rules.quiet.fifoFull b trivial).allowed

theorem readouts_switchedOff (report : Cause → Message) (b : Board) :
    (b.switchedOff report).readouts = b.readouts := by
  have hmode := readouts_setFifoMode .disabled b
  unfold switchedOff
  rcases h : Converter.setFifoMode .disabled b with ⟨o, c⟩
  rw [h] at hmode
  cases o with
  | ok v => exact hmode
  | error e => exact (readouts_noted _ c).trans hmode
  | fault x => exact hmode

theorem record_traced {α : Type} (kind : UInt32 → BusFault) (event : Except BusFault α → Event)
    {a : Action Board UInt32 α} (ha : a.Obeys Rules.lax.contract) (b : Board) :
    ∃ r, (traced kind event a b).2.record = event r :: (a b).2.record := by
  obtain ⟨r, -, hr⟩ := Action.attempt_of_sure BusFault (ha.mapError kind b trivial).sure
  have hstate : (a.mapError kind b).2 = (a b).2 := rfl
  refine ⟨r, ?_⟩
  unfold traced
  rw [Action.bind_ok _ hr, hstate]
  cases r <;> rfl

theorem record_serve (n : Nat) (b : Board) : (serve n b).2.record = b.record := by
  have hcount : (countAccess .data b).2.record = b.record := by
    unfold countAccess
    dsimp only
    split <;> rfl
  unfold serve
  rw [Action.bind_apply]
  rcases h : countAccess .data b with ⟨o, c⟩
  rw [h] at hcount
  cases o with
  | ok v => exact hcount
  | error e => exact hcount
  | fault x => exact hcount

/-- A readout counts as one, whether it succeeds or fails. -/
theorem readouts_readData (n : Nat) (b : Board) :
    (Converter.readData n b).2.readouts = b.readouts + 1 := by
  have hcount : ∀ (kind : UInt32 → BusFault) (event : Except BusFault (Array UInt8) → Event),
      (∀ r, (event r).readsFifo = true) →
        ((traced kind event (serve n) b).2.record.countP Event.readsFifo) = b.readouts + 1 := by
    intro kind event hevent
    obtain ⟨r, hr⟩ := record_traced kind event (Rules.lax.serve n) b
    rw [hr, record_serve, List.countP_cons_of_pos (hevent r)]
    rfl
  change ((readData n) b).2.record.countP Event.readsFifo = _
  unfold readData
  rw [Action.state_bind]
  cases b.transport with
  | direct => exact hcount _ _ fun _ => rfl
  | serial => exact hcount _ _ fun _ => rfl

end Board

/-! ## Interrupts during a capture -/

namespace Driver

/-- Nothing was read out, published or resized on the way from one driver to the other. -/
structure Quiet (x y : Driver) : Prop where
  readouts : y.fifo.board.readouts = x.fifo.board.readouts
  completion : y.completion = x.completion
  buffers : y.fifo.buffers = x.fifo.buffers

/-- What a readout of the FIFO gives to an interrupt that found it full. -/
def readout (x : Driver) : Outcome Cause (Array UInt8) :=
  (Converter.readData x.fifo.rawSize (Converter.fifoFull x.fifo.board).2).1

/-- The readout of an interrupt of the driver `x` is in the completion and the buffers of `y`. -/
inductive Published (b : Buffers) (x y : Driver) : Prop where
  | read {raw : Array UInt8} (hread : x.readout = .ok raw) (hsize : raw.size = b.rawSize)
      (hslot : y.completion.result? = some (.ok ()))
      (hbuffers : y.fifo.buffers = some ⟨raw, Sample.words raw b.watermark⟩)
  | failed {f : BusFault} (hread : x.readout = .error (.bus f))
      (hslot : y.completion.result? = some (.error (.bus f))) (hbuffers : y.fifo.buffers = some b)

theorem awaits_of_done {d : Driver} (h : d.completion.done = true) : d.awaits = false := by
  unfold awaits
  rw [h, Bool.not_true, Bool.and_false]

theorem awaits_of_idle {d : Driver} (h : d.capture = .idle) : d.awaits = false := by
  unfold awaits pending
  rw [h]
  rfl

theorem consumed_idle {d : Driver} (h : d.awaits = false) :
    d.consumed = d.withBoard (d.fifo.board.noted .noCapturePending) := by
  unfold consumed
  rw [h]
  rfl

/-- An interrupt is quiet unless it finds the FIFO full while a capture waits for it. -/
theorem interrupted_quiet {d : Driver} (h : ¬ d.full ∨ d.awaits = false) :
    Quiet d d.interrupted := by
  have hasked := Board.readouts_fifoFull d.fifo.board
  unfold full at h
  unfold interrupted
  rcases hf : Converter.fifoFull d.fifo.board with ⟨o, b⟩
  rw [hf] at h hasked
  cases o with
  | ok full =>
    cases full with
    | false => exact ⟨(Board.readouts_noted _ b).trans hasked, rfl, rfl⟩
    | true =>
      have hidle : (d.withBoard b).awaits = false := h.resolve_left (fun hn => hn rfl)
      dsimp only
      rw [consumed_idle hidle]
      refine ⟨?_, rfl, rfl⟩
      exact (Board.readouts_switchedOff _ _).trans ((Board.readouts_noted _ b).trans hasked)
  | error e => exact ⟨(Board.readouts_noted _ b).trans hasked, rfl, rfl⟩
  | fault x => exact ⟨hasked, rfl, rfl⟩

/-- The interrupt that a capture waits for reads the FIFO out once and publishes how that went. -/
theorem interrupted_published {d : Driver} (h : d.Sound) (hfull : d.full)
    (hawaits : d.awaits = true) {b : Buffers} (hb : d.fifo.buffers = some b) :
    Published b d d.interrupted ∧
      d.interrupted.fifo.board.readouts = d.fifo.board.readouts + 1 := by
  have hshaped := h.shaped b hb
  have hasked := Board.readouts_fifoFull d.fifo.board
  have hsize : d.fifo.rawSize = b.rawSize := by
    unfold Fifo.rawSize
    rw [hb]
    rfl
  unfold full at hfull
  unfold interrupted
  rcases hf : Converter.fifoFull d.fifo.board with ⟨o, c⟩
  rw [hf] at hfull hasked
  cases hfull
  have hread : d.readout = (Converter.readData b.rawSize c).1 := by
    unfold readout
    rw [hsize, hf]
  have hcount := Board.readouts_readData b.rawSize c
  have hout := Fifo.readSamples_eq (f := (d.withBoard c).fifo) hb hshaped.rawSize_eq
  have hconsumed : (d.withBoard c).consumed = (d.withBoard c).readOut := if_pos hawaits
  dsimp only
  rw [hconsumed]
  rcases Converter.readData_ends b.rawSize c with ⟨raw, e, hr⟩ | ⟨f, e, hr⟩
  · rw [show (d.withBoard c).fifo.board = c from rfl, hr] at hout
    rw [hr] at hread hcount
    have hraw : raw.size = b.rawSize := Board.readData_size (Action.of_mapError_ok _ hr)
    rw [readOut_eq hout]
    refine ⟨.read hread hraw rfl rfl, ?_⟩
    exact (Board.readouts_switchedOff _ _).trans (hcount.trans (congrArg (· + 1) hasked))
  · rw [show (d.withBoard c).fifo.board = c from rfl, hr] at hout
    rw [hr] at hread hcount
    rw [readOut_eq hout]
    refine ⟨.failed hread rfl hb, ?_⟩
    exact (Board.readouts_switchedOff _ _).trans (hcount.trans (congrArg (· + 1) hasked))

/-- How far a capture with these buffers has come, with these interrupts so far. -/
inductive Progress (b : Buffers) : List (Driver × Driver) → Driver → Prop where
  | waiting {l : List (Driver × Driver)} {y : Driver}
      (hquiet : ∀ z ∈ l, ¬ z.1.full ∧ Quiet z.1 z.2) (hdone : y.completion.done = false)
      (hbuffers : y.fifo.buffers = some b) : Progress b l y
  | published {early later : List (Driver × Driver)} {x x' y : Driver}
      (hearly : ∀ z ∈ early, ¬ z.1.full ∧ Quiet z.1 z.2) (hfull : x.full)
      (honce : x'.fifo.board.readouts = x.fifo.board.readouts + 1)
      (hlater : ∀ z ∈ later, Quiet z.1 z.2) (hdone : Published b x y) :
      Progress b (early ++ (x, x') :: later) y

theorem Published.alike {b : Buffers} {x y z : Driver} (h : Published b x y)
    (hcompletion : z.completion = y.completion) (hbuffers : z.fifo.buffers = y.fifo.buffers) :
    Published b x z := by
  cases h with
  | read hread hsize hslot hb =>
    exact .read hread hsize (hcompletion ▸ hslot) (hbuffers.trans hb)
  | failed hread hslot hb => exact .failed hread (hcompletion ▸ hslot) (hbuffers.trans hb)

theorem Published.done {b : Buffers} {x y : Driver} (h : Published b x y) :
    y.completion.done = true := by
  cases h with
  | read _ _ hslot _ => exact (Completion.done_of_result? hslot).1
  | failed _ hslot _ => exact (Completion.done_of_result? hslot).1

namespace Progress

variable {b : Buffers} {l : List (Driver × Driver)} {d e : Driver}

/-- What leaves the completion and the buffers alone does not change how far a capture is. -/
theorem alike (h : Progress b l d) (hcompletion : e.completion = d.completion)
    (hbuffers : e.fifo.buffers = d.fifo.buffers) : Progress b l e := by
  cases h with
  | waiting hquiet hdone hb =>
    exact .waiting hquiet (hcompletion ▸ hdone) (hbuffers.trans hb)
  | published hearly hfull honce hlater hdone =>
    exact .published hearly hfull honce hlater (hdone.alike hcompletion hbuffers)

/-- An interrupt carries a capture on: it is quiet, or it is the one that reads the FIFO out. -/
theorem interrupt (h : Progress b l d) (hd : d.Sound) (harmed : d.capture = .armed) :
    Progress b (l ++ [(d, d.interrupted)]) d.interrupted := by
  cases h with
  | waiting hquiet hdone hb =>
    by_cases hfull : d.full
    · have hawaits : d.awaits = true := awaits_iff.mpr ⟨harmed, hdone⟩
      obtain ⟨hp, honce⟩ := interrupted_published hd hfull hawaits hb
      exact .published hquiet hfull honce (fun _ hz => nomatch hz) hp
    · have hq : Quiet d d.interrupted := interrupted_quiet (.inl hfull)
      refine .waiting ?_ (hq.completion ▸ hdone) (hq.buffers.trans hb)
      intro z hz
      rcases List.mem_append.mp hz with hz | hz
      · exact hquiet z hz
      · rw [List.mem_singleton.mp hz]
        exact ⟨hfull, hq⟩
  | @published early later x x' _ hearly hfull honce hlater hdone =>
    have hq : Quiet d d.interrupted := interrupted_quiet (.inr (awaits_of_done hdone.done))
    rw [List.append_assoc, List.cons_append]
    refine .published hearly hfull honce ?_ (hdone.alike hq.completion hq.buffers)
    intro z hz
    rcases List.mem_append.mp hz with hz | hz
    · exact hlater z hz
    · rw [List.mem_singleton.mp hz]
      exact hq

theorem readouts_le (h : Progress b l d) (hd : d.Sound) :
    d.fifo.board.readouts ≤ d.interrupted.fifo.board.readouts := by
  by_cases hq : ¬ d.full ∨ d.awaits = false
  · exact Nat.le_of_eq (interrupted_quiet hq).readouts.symm
  · obtain ⟨hfull, hawaits⟩ := not_or.mp hq
    have hawaits : d.awaits = true := by simpa using hawaits
    obtain ⟨-, hdone⟩ := awaits_iff.mp hawaits
    cases h with
    | waiting _ _ hb =>
      rw [(interrupted_published hd (Classical.not_not.mp hfull) hawaits hb).2]
      exact Nat.le_succ _
    | published _ _ _ _ hp => exact absurd (hp.done.symm.trans hdone) Bool.noConfusion

end Progress

end Driver

end AdcCapture
