/-
  From one state of a driver to the next. The journal of a run shows the states that the driver has
  between its critical sections; a `Driver.Passage` says everything that can have happened between
  two neighbours: a whole operation, whose end the journal shows, or one of the sections of a
  capture or a submission. `Operation.run_traced` says that a run makes no other passages, so what
  holds at the start and survives every passage holds in every state of every run
  (`Traced.invariant`).
-/
import AdcCapture.Proofs.CaptureOutcome

namespace AdcCapture

/-! ## Calls to the board away from the FIFO -/

/-- The registers of the FIFO: the one with its mode, and the two of its watermark. -/
def Register.isFifo (a : UInt16) : Bool :=
  a = generalConfig || a = watermarkLow || a = watermarkHigh

namespace Board

/-- Neither a readout of the FIFO nor a write to one of its registers. -/
def Deed.Elsewhere : Deed → Prop
  | write a => Register.isFifo a = false
  | readFifo => False
  | platform _ => True
  | reserve => True

namespace Rules

/-- The strictest rules that permit these deeds. -/
def strictest (D : Deed → Prop) : Rules where
  permits := D
  allows b c := ∀ R : Rules, (∀ x, D x → R.permits x) → R.allows b c
  refl b R _ := R.refl b
  trans h h' R hR := R.trans (h R hR) (h' R hR)
  counted b R _ := R.counted b
  noted b e hread hcall R hR := R.noted b e (fun h => hR _ (hread h)) hcall
  written b a v h R hR := R.written b a v (hR _ h)
  called b c irq ok h R hR := R.called b c irq ok (hR _ h)
  reserved b bytes h R hR := R.reserved b bytes (hR _ h)

def elsewhere : Rules := strictest Deed.Elsewhere

end Rules

end Board

/-! ## States and passages -/

variable {δ : Type}

/-- The state that an entry shows, if it was made between two critical sections. -/
def Entry.state? : Entry δ → Option Driver
  | passed d => some d
  | ended _ _ _ _ => none

/-- The states of the driver between its critical sections, the latest first. -/
def states (journal : List (Entry δ)) : List Driver := journal.filterMap Entry.state?

/-- The neighbours in a list of states, the latest first: of every two the earlier one, and the
later one. -/
def passages : List Driver → List (Driver × Driver)
  | y :: x :: rest => (x, y) :: passages (x :: rest)
  | _ => []

/-- The call on the driver that an operation is, if it is no more than that. -/
def Operation.single? : Operation δ → Option (Call Driver Unit)
  | disturb x => some (Driver.onBoard (.update x.change))
  | converter s => some (Driver.onBoard (Answer.asCall s.run))
  | interrupt => some (Driver.onInterrupt.mapError Empty.elim)
  | setWatermark n => some (Driver.setWatermark n)
  | setTimeout polls => some (.update (Driver.setCaptureTimeout polls))
  | storeAttribute index input => some (Driver.storeAttribute index input)
  | writeDocumented a v => some (Driver.writeDocumented a v)
  | _ => none

/-- What can bring a driver from one state that a journal shows to the next. -/
inductive Driver.Passage (J : List (Entry δ)) (x : Driver) : Driver → Prop where
  /-- A whole operation. -/
  | single {op : Operation δ} {a : Call Driver Unit} {o : Outcome Cause Unit} {y : Driver}
      (hop : op.single? = some a) (hrun : a x = (o, y)) (hended : .ended op x y o ∈ J) :
      Passage J x y
  /-- A call to the board that leaves the FIFO and its registers alone. -/
  | aside {b : Board} (h : Board.Rules.elsewhere.allows x.fifo.board b) : Passage J x (x.withBoard b)
  /-- The change of the watermark before a submission. -/
  | resized {n : Nat} {o : Outcome Cause Unit} {y : Driver} (hrun : setWatermark n x = (o, y)) :
      Passage J x y
  /-- The first section of a capture. -/
  | begun {o : Outcome Cause Unit} {y : Driver} (hrun : beginCapture x = (o, y)) : Passage J x y
  /-- The last section of a capture that had waited on the completion `c`. -/
  | closed {polls : UInt32} {c : Completion (Except Cause Unit)} {o : Outcome Cause Unit}
      {y : Driver} (harmed : x.capture = .armed) (hstays : c.done = true → x.completion = c)
      (hrun : endCapture polls c.waited x = (o, y)) : Passage J x y

theorem Driver.Passage.mono {J J' : List (Entry δ)} {x y : Driver} (h : Passage J x y)
    (hJ : ∀ e ∈ J, e ∈ J') : Passage J' x y := by
  cases h with
  | single hop hrun hended => exact .single hop hrun (hJ _ hended)
  | aside h => exact .aside h
  | resized hrun => exact .resized hrun
  | begun hrun => exact .begun hrun
  | closed harmed hstays hrun => exact .closed harmed hstays hrun

/-- The journal shows a driver that was `d` at first and made no passages but those that there are.
The ends of the operations are taken from the journal `K`, which may be ahead of it. -/
structure Traced (d : Driver) (K J : List (Entry δ)) : Prop where
  first : (states J).getLast? = some d
  sound : ∀ x ∈ states J, x.Sound
  passage : ∀ z ∈ passages (states J), Driver.Passage K z.1 z.2
  shown : ∀ e ∈ J, ∀ x ∈ e.drivers, x ∈ states J

namespace Traced

variable {d x y : Driver} {J K L : List (Entry δ)}

theorem start (h : d.Sound) : Traced d K [.passed d] where
  first := rfl
  sound := List.forall_mem_singleton.mpr h
  passage _ hz := nomatch hz
  shown := List.forall_mem_singleton.mpr fun _ hx => hx

theorem mono (h : Traced d K J) (hK : ∀ e ∈ K, e ∈ L) : Traced d L J where
  first := h.first
  sound := h.sound
  passage z hz := (h.passage z hz).mono hK
  shown := h.shown

theorem pass (h : Traced d K J) (hx : (states J).head? = some x) (hy : y.Sound)
    (hpassage : Driver.Passage K x y) : Traced d K (.passed y :: J) := by
  have hstates : states (.passed y :: J) = y :: states J := rfl
  obtain ⟨rest, hrest⟩ := List.head?_eq_some_iff.mp hx
  constructor
  · rw [hstates, hrest, List.getLast?_cons_cons, ← hrest]
    exact h.first
  · exact List.forall_mem_cons.mpr ⟨hy, h.sound⟩
  · rw [hstates, hrest]
    refine List.forall_mem_cons.mpr ⟨hpassage, ?_⟩
    rw [← hrest]
    exact h.passage
  · refine List.forall_mem_cons.mpr ⟨List.forall_mem_singleton.mpr List.mem_cons_self, ?_⟩
    exact fun e he z hz => List.mem_cons_of_mem _ (h.shown e he z hz)

theorem note (h : Traced d K J) (op : Operation δ) (hx : x ∈ states J) (hy : y ∈ states J)
    (o : Outcome Cause Unit) : Traced d K (.ended op x y o :: J) where
  first := h.first
  sound := h.sound
  passage := h.passage
  shown := by
    refine List.forall_mem_cons.mpr ⟨fun z hz => ?_, h.shown⟩
    rcases List.mem_cons.mp hz with rfl | hz
    · exact hx
    · exact List.mem_singleton.mp hz ▸ hy

end Traced

theorem mem_of_passages : ∀ {l : List Driver} {z : Driver × Driver}, z ∈ passages l → z.1 ∈ l
  | [], _, hz => nomatch hz
  | [_], _, hz => nomatch hz
  | y :: x :: rest, z, hz => by
    rcases List.mem_cons.mp hz with rfl | hz
    · exact List.mem_cons_of_mem _ List.mem_cons_self
    · exact List.mem_cons_of_mem _ (mem_of_passages hz)

/-- What holds of the last state of a list and survives every passage holds of all its states. -/
theorem forall_of_passages {P : Driver → Prop} {d : Driver} :
    ∀ {l : List Driver}, l.getLast? = some d → P d →
      (∀ z ∈ passages l, P z.1 → P z.2) → ∀ x ∈ l, P x
  | [], _, _, _ => fun _ hx => nomatch hx
  | [e], hlast, hd, _ => by
    cases hlast
    exact List.forall_mem_singleton.mpr hd
  | y :: x :: rest, hlast, hd, hstep => by
    have hrest : ∀ z ∈ x :: rest, P z :=
      forall_of_passages (List.getLast?_cons_cons.symm.trans hlast) hd
        fun z hz => hstep z (List.mem_cons_of_mem _ hz)
    have hlatest := hstep (x, y) List.mem_cons_self (hrest x List.mem_cons_self)
    exact List.forall_mem_cons.mpr ⟨hlatest, hrest⟩

/-- What holds at the start and survives every passage holds in every state that the journal
shows. -/
theorem Traced.invariant {d : Driver} {J : List (Entry δ)} (h : Traced d J J) {P : Driver → Prop}
    (hd : P d) (hstep : ∀ x y, x.Sound → Driver.Passage J x y → P x → P y) :
    ∀ e ∈ J, ∀ x ∈ e.drivers, P x := by
  intro e he x hx
  refine forall_of_passages h.first hd (fun z hz => ?_) x (h.shown e he x hx)
  exact hstep z.1 z.2 (h.sound z.1 (mem_of_passages hz)) (h.passage z hz)

/-! ## Scenes -/

namespace Scene

/-- The journal traces a driver that was `d` at first up to the driver of the scene. -/
structure Follows (d : Driver) (s : Scene δ) : Prop where
  sound : s.Sound
  here : (states s.journal).head? = some s.driver
  traced : Traced d s.journal s.journal

/-- A call makes passages only, and leaves what the journal shows already. -/
def following (d : Driver) : Contract (Scene δ) where
  inv := Follows d
  allows s t := s.journal <:+ t.journal
  refl s := List.suffix_refl s.journal
  trans := List.IsSuffix.trans

variable {d : Driver} {s : Scene δ}

theorem Follows.pass (h : Follows d s) {y : Driver} (hy : y.Sound)
    (hpassage : Driver.Passage s.journal s.driver y) : Follows d (s.pass y) where
  sound := h.sound.pass hy
  here := rfl
  traced := (h.traced.pass h.here hy hpassage).mono fun _ he => List.mem_cons_of_mem _ he

/-- The end of an operation, unless it is one of those that are a passage by themselves. -/
theorem Follows.note {t : Scene δ} (hs : Follows d s) (ht : Follows d t)
    (hjournal : s.journal <:+ t.journal) (op : Operation δ) {o : Outcome Cause Unit}
    (ho : o.fault? = none) : Follows d (Scene.note op s.driver (o, t)) := by
  have hmem : ∀ {u : Scene δ}, Follows d u → u.driver ∈ states u.journal :=
    fun hu => List.mem_of_mem_head? hu.here
  have hbefore : s.driver ∈ states t.journal := (hjournal.filterMap _).subset (hmem hs)
  have hnote := ht.traced.note op hbefore (hmem ht) o
  exact {
    sound := hs.sound.note ht.sound op ho
    here := ht.here
    traced := hnote.mono fun _ he => List.mem_cons_of_mem _ he }

theorem setWatermark_follows (n : Nat) :
    (Action.within driverPart (Driver.setWatermark n) : Call (Scene δ) Unit).Obeys
      (following d) := by
  intro s hs
  obtain ⟨hsure, hsound, -⟩ := Driver.setWatermark_obeys n s.driver hs.sound.driver
  exact ⟨hsure, hs.pass hsound (.resized rfl), List.suffix_cons _ _⟩

theorem grants : Grants Board.Rules.elsewhere (following d : Contract (Scene δ)) where
  board {ε α a} ha := by
    intro s hs
    obtain ⟨hsure, -, hallowed⟩ := ha s.driver.fifo.board trivial
    exact ⟨hsure, hs.pass (hs.sound.driver.withBoard _) (.aside hallowed), List.suffix_cons _ _⟩
  sink _ _ s hs := ⟨⟨⟨hs.sound.driver, hs.sound.journal⟩, hs.here, hs.traced⟩, List.suffix_refl _⟩

end Scene

/-! ## Runs -/

namespace Operation

open Scene (driverPart following Follows)

variable [Sink δ] {d : Driver} {s : Scene δ}

theorem call_single {op : Operation δ} {a : Call Driver Unit} (h : op.single? = some a) :
    op.call = Action.within driverPart a := by
  cases op with
  | disturb x => cases h; rfl
  | converter s => cases h; rfl
  | interrupt => cases h; rfl
  | setWatermark n => cases h; rfl
  | setTimeout polls => cases h; rfl
  | storeAttribute index input => cases h; rfl
  | writeDocumented a v => cases h; rfl
  | _ => cases h

/-- An operation that is a passage by itself, together with its end. -/
theorem single_follows {op : Operation δ} {a : Call Driver Unit} (hop : op.single? = some a)
    (hs : Follows d s) :
    Follows d (Scene.note op s.driver (op.call s)) ∧
      s.journal <:+ (Scene.note op s.driver (op.call s)).journal := by
  obtain ⟨hsure, ht, -⟩ := call_obeys op s hs.sound
  have hsound := hs.sound.note ht op hsure
  rcases hrun : a s.driver with ⟨o, y⟩
  have hcall : op.call s = (o, s.pass y) := by
    rw [call_single hop]
    exact Action.within_eq s hrun
  rw [hcall] at ht hsound ⊢
  let K := Entry.ended op s.driver y o :: .passed y :: s.journal
  have hK : ∀ e ∈ s.journal, e ∈ K :=
    fun e he => List.mem_cons_of_mem _ (List.mem_cons_of_mem _ he)
  have hpass := (hs.traced.mono hK).pass hs.here ht.driver (.single hop hrun List.mem_cons_self)
  have hbefore : s.driver ∈ states (.passed y :: s.journal) :=
    List.mem_cons_of_mem _ (List.mem_of_mem_head? hs.here)
  refine ⟨⟨hsound, rfl, hpass.note op hbefore List.mem_cons_self o⟩, ?_⟩
  exact (List.suffix_cons _ _).trans (List.suffix_cons _ _)

/-- A result that is there during a capture stays. -/
theorem call_settled (op : Operation δ) (hs : s.driver.Sound) (harmed : s.driver.capture = .armed)
    (hdone : s.driver.completion.done = true) :
    (op.call s).2.driver.completion = s.driver.completion := by
  cases hi : op.isInterrupt with
  | true =>
    have hop : op = .interrupt := by
      cases op with
      | interrupt => rfl
      | _ => cases hi
    rw [hop, Scene.call_interrupt hs]
    exact (Driver.interrupted_quiet (.inr (Driver.awaits_of_done hdone))).completion
  | false => exact (op.call_busy hi s ⟨hs, harmed⟩).allowed.1.1

theorem runAll_settled (ops : List (Operation δ)) (hs : s.Sound)
    (harmed : s.driver.capture = .armed) (hdone : s.driver.completion.done = true) :
    (runAll ops s).driver.completion = s.driver.completion := by
  induction ops generalizing s with
  | nil => rfl
  | cons op rest ih =>
    obtain ⟨hsure, ht, hstays⟩ := call_obeys op s hs
    have hsettled := call_settled op hs.driver harmed hdone
    exact (ih (hs.note ht op hsure) (hstays harmed) (hsettled.symm ▸ hdone)).trans hsettled

theorem captureOn_follows {afterArm afterWait : List (Operation δ)}
    (harm : (Action.update (runAll afterArm) : Call (Scene δ) Unit).Obeys (following d))
    (hwait : (Action.update (runAll afterWait) : Call (Scene δ) Unit).Obeys (following d)) :
    (Driver.captureOn driverPart (during afterArm afterWait)).Obeys (following d) := by
  intro s hs
  rcases hs.sound.driver.beginCapture with ⟨e, y, hbegin, hy, -⟩ | ⟨b, hbegin, hy, -⟩
  · rw [Scene.captureOn_error _ hbegin]
    exact ⟨rfl, hs.pass hy (.begun hbegin), List.suffix_cons _ _⟩
  · have hbegun := hs.pass hy (.begun hbegin)
    obtain ⟨-, -, hpending⟩ := runAll_obeys afterArm _ hbegun.sound
    obtain ⟨-, ht, hjournal⟩ := harm _ hbegun
    have harmed := hpending rfl
    rw [Scene.captureOn_begun _ hbegin (ht.sound.driver.signed harmed)]
    dsimp only [Action.update_apply] at ht hjournal harmed ⊢
    generalize runAll afterArm (s.pass (s.driver.begun b)) = t at ht hjournal harmed ⊢
    have hnote : Board.Rules.elsewhere.allows t.driver.fifo.board
        (t.driver.fifo.board.noted .captureArmed) :=
      (Board.Rules.elsewhere.log (ε := Cause) .captureArmed _ trivial).allowed
    -- the wait is a section of its own, in which nothing changes
    have hw : Follows d t.waiting := (ht.pass (ht.sound.driver.withBoard _) (.aside hnote)).pass
      (ht.sound.driver.withBoard _) (.aside (Board.Rules.elsewhere.refl _))
    obtain ⟨-, -, hpending'⟩ := runAll_obeys afterWait t.waiting hw.sound
    have hsettled : t.driver.completion.done = true →
        (runAll afterWait t.waiting).driver.completion = t.driver.completion :=
      runAll_settled afterWait hw.sound harmed
    obtain ⟨-, hu, hjournal'⟩ := hwait t.waiting hw
    have harmed' := hpending' harmed
    dsimp only [Action.update_apply] at hu hjournal' harmed' hsettled
    generalize runAll afterWait t.waiting = u at hu hjournal' harmed' hsettled ⊢
    obtain ⟨hsure, hend⟩ := hu.sound.driver.endCapture harmed' t.driver.captureTimeout
      t.driver.completion.waited
    refine ⟨hsure, hu.pass hend (.closed harmed' hsettled rfl), ?_⟩
    have hwaiting : t.journal <:+ t.waiting.journal :=
      (List.suffix_cons _ _).trans (List.suffix_cons _ _)
    have hbefore : s.journal <:+ t.journal := (List.suffix_cons _ _).trans hjournal
    exact (hbefore.trans (hwaiting.trans hjournal')).trans (List.suffix_cons _ _)

mutual

/-- The operations that are no passage by themselves make only passages that there are. -/
theorem call_follows (d : Driver) : ∀ op : Operation δ, op.single? = none →
    op.call.Obeys (following d)
  | changeSink i f, _ => Scene.grants.changeSink i f
  | capture afterArm afterWait, _ =>
    captureOn_follows (runAll_follows d afterArm) (runAll_follows d afterWait)
  | submit n i afterArm afterWait, _ =>
    Scene.grants.submitOn i n (Scene.setWatermark_follows n)
      (captureOn_follows (runAll_follows d afterArm) (runAll_follows d afterWait))
  | showAttribute index room afterArm afterWait, _ =>
    .bind (Scene.grants.showAttributeOn index room
      (captureOn_follows (runAll_follows d afterArm) (runAll_follows d afterWait))) fun _ => .pure ()
  | readDocumented a, _ =>
    .bind (Scene.grants.board (Board.Rules.elsewhere.readDocumented a)) fun _ => .pure ()

theorem runAll_follows (d : Driver) : ∀ ops : List (Operation δ),
    (Action.update (runAll ops) : Call (Scene δ) Unit).Obeys (following d)
  | [] => .update fun _ hs => ⟨hs, List.suffix_refl _⟩
  | op :: rest => by
    intro s hs
    have hop : Follows d (Scene.note op s.driver (op.call s)) ∧
        s.journal <:+ (Scene.note op s.driver (op.call s)).journal := by
      cases hsingle : op.single? with
      | some a => exact single_follows hsingle hs
      | none =>
        obtain ⟨hsure, ht, hjournal⟩ := call_follows d op hsingle s hs
        exact ⟨hs.note ht hjournal op hsure, hjournal.trans (List.suffix_cons _ _)⟩
    obtain ⟨-, hu, hjournal⟩ := runAll_follows d rest _ hop.1
    exact ⟨rfl, hu, hop.2.trans hjournal⟩

end

/-- Every state of every run comes from the state before it by a passage. -/
theorem run_traced {c : Config} {b : Board} {d : Driver} (h : (Driver.init c b).1 = .ok d)
    (sinks : Nat → δ) (ops : List (Operation δ)) :
    Traced d (runAll ops (Scene.start d sinks)).journal
      (runAll ops (Scene.start d sinks)).journal := by
  have hstart : Follows d (Scene.start d sinks) :=
    ⟨Scene.start_sound h sinks, rfl, .start (Driver.init_sound h)⟩
  exact (runAll_follows d ops _ hstart).inv.traced

end Operation

end AdcCapture
