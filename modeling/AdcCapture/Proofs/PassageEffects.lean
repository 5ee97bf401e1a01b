/-
  What each passage does to a driver, in full: to its board, its buffers, its completion and its
  capture state (`Driver.Effect`), and what a start that succeeds has done (`Driver.Started`). An
  invariant of drivers is proved against these two, and no call has to be opened for it.
-/
import AdcCapture.Proofs.InterruptTraffic
import AdcCapture.Proofs.StoredSettings
import AdcCapture.Proofs.WatermarkChange

namespace AdcCapture

open Converter (SetFieldEnds)

/-- Whatever is done elsewhere, the registers of the FIFO keep their bytes. -/
theorem Board.registers_elsewhere {b c : Board} (h : Rules.elsewhere.allows b c) {a : UInt16}
    (ha : Register.isFifo a = true) : c.registers.get a = b.registers.get a := by
  refine h (.sparing a) fun x hx hxa => ?_
  subst hxa
  exact Bool.noConfusion (hx.symm.trans ha)

variable {δ : Type}

/-- Whether an operation is one that the driver has no part in: a change of the board, a typed call
to the converter, or a write to one of its registers. -/
def Operation.isForeign : Operation δ → Bool
  | disturb _ => true
  | converter _ => true
  | writeDocumented _ _ => true
  | _ => false

/-- If the entry is the end of an operation of this kind, that left a register as it was. -/
def Entry.Spares (kind : Operation δ → Bool) (a : UInt16) : Entry δ → Prop
  | passed _ => True
  | ended op before after _ =>
    kind op = true → after.fifo.board.registers.get a = before.fifo.board.registers.get a

instance (kind : Operation δ → Bool) (a : UInt16) : DecidablePred (Entry.Spares kind a)
  | .passed _ => isTrue trivial
  | .ended _ _ _ _ => inferInstanceAs (Decidable (_ = true → _ = _))

namespace Driver

/-- The watermark was changed to `w` on the way from `x` to `y`, by a call or by an attribute. -/
inductive Resizes (w : Nat) (x y : Driver) : Prop where
  | set (h : setWatermark w x = (.ok (), y))
  | stored {index : Nat} {input : String} (hindex : Attribute.ofIndex? index = some .fifoWatermark)
      (hparse : Attribute.parse .fifoWatermark input = .ok (.watermark w))
      (h : storeAttribute index input x = (.ok (), y))

/-- What a passage from the driver `x` can do to it. -/
inductive Effect (J : List (Entry δ)) (x : Driver) : Driver → Prop where
  /-- Nothing but the board changes, and the FIFO and its registers are left alone. -/
  | aside {b : Board} (h : Board.Rules.elsewhere.allows x.fifo.board b) : Effect J x (x.withBoard b)
  /-- Something foreign changes the board; it takes no failure back. -/
  | foreign {op : Operation δ} {o : Outcome Cause Unit} {b : Board} (hop : op.isForeign = true)
      (hended : .ended op x (x.withBoard b) o ∈ J)
      (hgrow : ∀ a, x.fifo.board.failures a ≤ b.failures a) : Effect J x (x.withBoard b)
  /-- The FIFO mode is stored by a client. -/
  | stored {index : Nat} {input : String} {m : FifoMode} {note : Message} {b : Board}
      {o : Outcome Cause Unit} (hindex : Attribute.ofIndex? index = some .fifoMode)
      (hended : .ended (.storeAttribute index input) x (x.withBoard b) o ∈ J)
      (h : SetFieldEnds .fifoMode m.code (x.fifo.board.noted note) (o, b)) :
      Effect J x (x.withBoard b)
  | timed {polls : UInt32} : Effect J x (x.setCaptureTimeout polls)
  | interrupted : Effect J x x.interrupted
  /-- The watermark is changed, or cannot be. -/
  | resized {w : Nat} {b : Board} {o : Outcome Cause Unit} {f : Fifo} (hidle : x.capture = .idle)
      (hb : x.fifo.board.After [] x.fifo.board.chip b)
      (h : Fifo.SetWatermarkEnds w { x.fifo with board := b } (o, f))
      (hresizes : o = .ok () → Resizes w x { x with fifo := f }) : Effect J x { x with fifo := f }
  /-- A capture cannot begin, for there are no buffers. -/
  | unsized (hidle : x.capture = .idle) : Effect J x (x.refused x.fifo.board)
  /-- A capture cannot begin, for the FIFO cannot be armed. -/
  | unarmed {e : Cause} {b : Board} (hidle : x.capture = .idle)
      (h : SetFieldEnds .fifoMode FifoMode.immediateTrigger.code x.fifo.board (.error e, b)) :
      Effect J x (x.refused b)
  | begun {b : Board} (hidle : x.capture = .idle)
      (h : SetFieldEnds .fifoMode FifoMode.immediateTrigger.code x.fifo.board (.ok (), b)) :
      Effect J x (x.begun b)
  /-- A capture ends with the result that was published. -/
  | closed {b : Board} (harmed : x.capture = .armed) (hdone : x.completion.done = true)
      (h : x.fifo.board.After [] x.fifo.board.chip b) : Effect J x (x.closed.withBoard b)
  /-- A capture is given up, and the FIFO is turned off or cannot be. -/
  | abandoned {b c e : Board} {o : Outcome Cause Unit} (harmed : x.capture = .armed)
      (hopen : x.completion.done = false) (hb : x.fifo.board.After [] x.fifo.board.chip b)
      (hoff : SetFieldEnds .fifoMode FifoMode.disabled.code b (o, c))
      (hlast : c.After [] c.chip e) : Effect J x (x.closed.withBoard e)

variable {J : List (Entry δ)} {x y : Driver}

/-- A change of the watermark, after messages on the board. -/
theorem Effect.of_setWatermark {w : Nat} {b : Board} {o : Outcome Cause Unit}
    (hb : x.fifo.board.After [] x.fifo.board.chip b)
    (haside : Board.Rules.elsewhere.allows x.fifo.board b)
    (hrun : setWatermark w (x.withBoard b) = (o, y)) (hresizes : o = .ok () → Resizes w x y) :
    Effect J x y := by
  cases hc : x.capture with
  | armed =>
    rw [setWatermark_armed (d := x.withBoard b) hc] at hrun
    cases hrun
    exact .aside haside
  | idle =>
    rw [setWatermark_idle (d := x.withBoard b) hc] at hrun
    have hends := Fifo.setWatermark_ends w { x.fifo with board := b }
    rcases h : Fifo.setWatermark w { x.fifo with board := b } with ⟨p, f⟩
    rw [h] at hends
    rw [onFifo_eq (d := x.withBoard b) h] at hrun
    cases hrun
    exact .resized hc hb hends hresizes

theorem Effect.of_beginCapture {o : Outcome Cause Unit} (hrun : beginCapture x = (o, y)) :
    Effect J x y := by
  cases hc : x.capture with
  | armed =>
    rw [beginCapture_armed hc] at hrun
    cases hrun
    exact .aside (Board.Rules.elsewhere.refl _)
  | idle =>
    cases hb : x.fifo.buffers with
    | none =>
      rw [beginCapture_unsized hc hb] at hrun
      cases hrun
      exact .unsized hc
    | some buffers =>
      have hsome : x.fifo.buffers.isSome = true := by rw [hb]; rfl
      have hmode := Converter.setFifoMode_effect .immediateTrigger x.fifo.board
      rcases hm : Converter.setFifoMode .immediateTrigger x.fifo.board with ⟨p, b⟩
      rw [hm] at hmode
      cases p with
      | ok _ =>
        rw [beginCapture_begun hc hsome hm] at hrun
        cases hrun
        exact .begun hc hmode
      | error e =>
        rw [beginCapture_refused hc hsome hm] at hrun
        cases hrun
        exact .unarmed hc hmode
      | fault x => cases hmode

theorem Effect.of_close {r : Except Cause Unit} (harmed : x.capture = .armed)
    (hdone : x.completion.done = true) : Effect J x (x.close r).2 := by
  cases r with
  | ok _ => exact .closed harmed hdone (Board.after_noted _ _)
  | error e => exact .closed harmed hdone (.refl x.fifo.board)

theorem Effect.of_endCapture (hx : x.Sound) {polls : UInt32}
    {c : Completion (Except Cause Unit)} {o : Outcome Cause Unit} (harmed : x.capture = .armed)
    (hstays : c.done = true → x.completion = c) (hrun : endCapture polls c.waited x = (o, y)) :
    Effect J x y := by
  cases hd : x.completion.done with
  | true =>
    obtain ⟨r, hr⟩ := Option.isSome_iff_exists.mp (hx.stored hd)
    have hresult : x.completion.result? = some r := (if_pos hd).trans hr
    rw [endCapture_published hx harmed hstays hresult] at hrun
    have hy : y = (x.close r).2 := (congrArg Prod.snd hrun).symm
    exact hy ▸ .of_close harmed hd
  | false =>
    rw [endCapture_open hstays hd] at hrun
    cases hrun
    have hnoted := Board.after_noted (.captureTimedOut polls) x.fifo.board
    obtain ⟨p, e, hoff, hlast⟩ :=
      Board.switchedOff_ends .abandonFailed (x.fifo.board.noted (.captureTimedOut polls))
    exact .abandoned harmed hd hnoted hoff hlast

/-- A foreign operation changes the board and nothing else, and takes no failure back. -/
theorem Effect.of_foreign {op : Operation δ} {a : Call Board Unit} {o : Outcome Cause Unit}
    (hop : op.isForeign = true) (hrun : onBoard a x = (o, y)) (hended : .ended op x y o ∈ J)
    (ha : ∀ r, a.Obeys (Board.Rules.failing r).contract) : Effect J x y := by
  cases hrun
  exact .foreign hop hended fun r => (ha r x.fifo.board trivial).allowed

/-- Everything that a passage can do. -/
theorem Passage.effect (h : Passage J x y) (hx : x.Sound) : Effect J x y := by
  cases h with
  | aside h => exact .aside h
  | @resized n o _ hrun =>
    exact .of_setWatermark (.refl x.fifo.board) (Board.Rules.elsewhere.refl _) hrun
      fun ho => .set (ho ▸ hrun)
  | begun hrun => exact .of_beginCapture hrun
  | closed harmed hstays hrun => exact .of_endCapture hx harmed hstays hrun
  | @single op a o _ hop hrun hended =>
    cases op with
    | disturb z =>
      cases hop
      refine .of_foreign rfl hrun hended fun r => .update fun b _ => ⟨trivial, ?_⟩
      have htraffic : (z.change b).traffic = b.traffic :=
        congrArg (List.filterMap Event.busAccess?) (z.record_eq b)
      exact Nat.le_of_eq (congrArg (List.countP (BusAccess.failsAt r)) htraffic.symm)
    | converter s =>
      cases hop
      exact .of_foreign rfl hrun hended fun r => s.run_obeys (Board.Rules.free_failing r)
    | writeDocumented r v =>
      cases hop
      exact .of_foreign rfl hrun hended fun r' =>
        (Board.Rules.failing r').writeDocumented r v trivial trivial
    | interrupt =>
      cases hop
      have hin :
          (onInterrupt.mapError Empty.elim : Call Driver Unit) x = (.ok (), x.interrupted) := by
        unfold Action.mapError
        rw [onInterrupt_eq hx]
        rfl
      rw [hin] at hrun
      cases hrun
      exact .interrupted
    | setWatermark n =>
      cases hop
      exact .of_setWatermark (.refl x.fifo.board) (Board.Rules.elsewhere.refl _) hrun
        fun ho => .set (ho ▸ hrun)
    | setTimeout polls =>
      cases hop
      cases hrun
      exact .timed
    | storeAttribute index input =>
      cases hop
      have hends := storeAttribute_ends index input x
      rw [hrun] at hends
      cases hends with
      | aside h => exact .aside h
      | @mode m note _ b hindex h =>
        have hmode := Converter.setFifoMode_effect m (x.fifo.board.noted note)
        rw [h] at hmode
        exact .stored hindex hended hmode
      | @watermark w note _ _ hindex hparse h =>
        refine .of_setWatermark (Board.after_noted note _) ?_ h fun ho => ?_
        · exact (Board.Rules.elsewhere.log (ε := Cause) note _ trivial).allowed
        · exact .stored hindex hparse (ho ▸ hrun)
    | _ => cases hop

/-! ## The start -/

/-- What the driver `d` is after a start with this configuration on the board `b`: the watermark has
been set, and before and after that the FIFO and its registers were left alone. -/
structure Started (c : Config) (b : Board) (d : Driver) : Prop where
  sized : ∃ b' f, Board.Rules.elsewhere.allows b b' ∧
    Fifo.SetWatermarkEnds c.watermark { board := b' } (.ok (), f) ∧
    d.fifo.buffers = f.buffers ∧ Board.Rules.elsewhere.allows f.board d.fifo.board
  idle : d.capture = .idle

end Driver

namespace Fifo

/-- The FIFO is left alone, with its registers and its buffers. -/
def aside : Contract Fifo where
  inv _ := True
  allows f g := g.buffers = f.buffers ∧ Board.Rules.elsewhere.allows f.board g.board
  refl f := ⟨rfl, Board.Rules.elsewhere.refl f.board⟩
  trans h h' := ⟨h'.1.trans h.1, Board.Rules.elsewhere.trans h.2 h'.2⟩

theorem onBoard_aside {ε α : Type} {a : Action Board ε α}
    (ha : a.Obeys Board.Rules.elsewhere.contract) : (onBoard a).Obeys aside :=
  .within ha (fun _ _ => trivial) fun _ _ _ _ hallowed => ⟨trivial, rfl, hallowed⟩

theorem registerIrq_aside (i : Nat) : (registerIrq i).Obeys aside := by
  refine registerIrq_admitted onBoard_aside (fun b => ?_) i ?_
  · exact .update fun f _ => ⟨trivial, rfl, Board.Rules.elsewhere.refl f.board⟩
  · exact ⟨fun _ => trivial, fun p => by cases p <;> rfl, fun p => by cases p <;> rfl⟩

end Fifo

namespace Driver

theorem bringUp_started {c : Config} {b : Board} {g : Fifo}
    (h : bringUp c { board := b } = (.ok (), g)) :
    ∃ b' f, Board.Rules.elsewhere.allows b b' ∧
      Fifo.SetWatermarkEnds c.watermark { board := b' } (.ok (), f) ∧
      g.buffers = f.buffers ∧ Board.Rules.elsewhere.allows f.board g.board := by
  obtain ⟨_, f₁, h₁, h⟩ := Action.of_bind_ok _ h
  obtain ⟨_, f₂, h₂, h⟩ := Action.of_bind_ok _ h
  obtain ⟨_, f₃, h₃, h₄⟩ := Action.of_bind_ok _ h
  obtain ⟨b', hreset, rfl⟩ := Action.of_within_ok _ h₁
  have hinit := (Board.Rules.elsewhere.init rfl b trivial).allowed
  have hready : (Fifo.onBoard (Board.log (.ready c.watermark c.fifoFullPin)) :
      Call Fifo Unit).Obeys Fifo.aside := Fifo.onBoard_aside (Board.Rules.elsewhere.log _)
  have hlog := (hready f₃ trivial).allowed
  rw [h₄] at hlog
  rw [show Converter.init b = (.ok _, b') from hreset] at hinit
  rcases Action.of_recover_ok _ h₂ with h₂ | ⟨_, _, -, h₂⟩
  · have hends := Fifo.setWatermark_ends c.watermark { board := b' }
    rw [show Fifo.setWatermark c.watermark { board := b' } = (.ok (), f₂) from h₂] at hends
    rcases Action.of_recover_ok _ h₃ with h₃ | ⟨_, _, -, h₃⟩
    · have hirq := (Fifo.registerIrq_aside c.fifoFullPin f₂ trivial).allowed
      rw [h₃] at hirq
      have hboth := Fifo.aside.trans hirq hlog
      exact ⟨b', f₂, hinit, hends, hboth.1, hboth.2⟩
    · obtain ⟨_, _, -, h₃⟩ := Action.of_bind_ok _ h₃
      cases h₃
  · cases h₂

theorem init_started {c : Config} {b : Board} {d : Driver} (h : (init c b).1 = .ok d) :
    Started c b d := by
  unfold init at h
  rcases hup : bringUp c { board := b } with ⟨o, f⟩
  rw [hup] at h
  cases o with
  | ok _ =>
    cases h
    exact ⟨bringUp_started hup, rfl⟩
  | error e => cases h
  | fault x => cases h

end Driver

end AdcCapture
