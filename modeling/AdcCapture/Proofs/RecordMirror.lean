/-
  The past as a mirror. A run in whose past something more has happened goes on as the run without
  it: no call looks at what happened before it. The counterpart of a board has further events in its
  record, below those since a given moment (`Board.pastMirror`); that of a scene has such a board
  and further entries in its journal. The mirror is faithful, so every call mirrors itself, and with
  the calls every operation (`Operation.call_mirrors`), as long as the disturbances do not look into
  the record either.
-/
import AdcCapture.Proofs.DriverMirrors
import AdcCapture.Proofs.OperationCalls

namespace AdcCapture

/-! ## Further elements in a list -/

section InsertBelow

variable {α : Type} (g : α → α) (es : List α)

/-- The list with `es` above its last `k` elements, and with what was above them as `g` makes it. -/
def insertBelow (k : Nat) : List α → List α
  | [] => es
  | x :: l => if k ≤ l.length then g x :: insertBelow k l else es ++ x :: l

theorem insertBelow_cons {k : Nat} (x : α) {l : List α} (h : k ≤ l.length) :
    insertBelow g es k (x :: l) = g x :: insertBelow g es k l := if_pos h

/-- At the moment itself there is nothing above. -/
theorem insertBelow_length (l : List α) : insertBelow g es l.length l = es ++ l := by
  cases l with
  | nil => exact (List.append_nil es).symm
  | cons x l => exact if_neg (Nat.not_succ_le_self _)

theorem insertBelow_nil (k : Nat) (l : List α) : insertBelow id [] k l = l := by
  induction l with
  | nil => rfl
  | cons x l ih =>
    unfold insertBelow
    split
    · exact congrArg (x :: ·) ih
    · rfl

/-- Elements that are filtered out are not seen. -/
theorem filter_insertBelow {p : α → Bool} (h : ∀ e ∈ es, p e = false) (k : Nat) (l : List α) :
    (insertBelow id es k l).filter p = l.filter p := by
  have hes : es.filter p = [] := List.filter_eq_nil_iff.mpr fun e he => by simp [h e he]
  induction l with
  | nil => exact hes
  | cons x l ih =>
    unfold insertBelow
    split
    · rw [id_eq, List.filter_cons, List.filter_cons, ih]
    · rw [List.filter_append, hes, List.nil_append]

end InsertBelow

/-! ## Boards -/

theorem Failure.through_id : Failure.through id = id := by
  funext e
  cases e <;> rfl

theorem bothMap_id {ε α : Type} : bothMap (id : ε → ε) (id : α → α) = id := by
  funext r
  cases r <;> rfl

theorem Driver.resultThrough_id : Driver.resultThrough id = id := by
  unfold resultThrough
  rw [Failure.through_id, bothMap_id]

theorem Outcome.mapError_id_map_id {ε α : Type} (o : Outcome ε α) : (o.mapError id).map id = o := by
  cases o <;> rfl

theorem Message.through_id (m : Message) : m.through id = m := by
  cases m with
  | unbindFailed e => exact congrArg unbindFailed (congrFun Failure.through_id e)
  | unsetFailed e => exact congrArg unsetFailed (congrFun Failure.through_id e)
  | interruptFailed e => exact congrArg interruptFailed (congrFun Failure.through_id e)
  | abandonFailed e => exact congrArg abandonFailed (congrFun Failure.through_id e)
  | _ => rfl

namespace Board

variable (es : List Event) (k : Nat)

/-- The board on which `es` has happened besides, just after the first `k` events. -/
def pastMirror : Mirror Board where
  image b := { b with record := insertBelow id es k b.record }
  inv b := k ≤ b.record.length

variable {es k}

theorem past_note {ε ε' : Type} {e : ε → ε'} (x : Event) :
    (note x : Action Board ε Unit).Mirrors (pastMirror es k) e id (note x) :=
  .update fun b hb => ⟨congrArg (fun r => { b with record := r })
    (insertBelow_cons id es x hb).symm, Nat.le_succ_of_le hb⟩

theorem past_platform (c : PlatformCall) (irq : Option UInt32) :
    (platform c irq).Mirrors (pastMirror es k) id id (platform c irq) := by
  intro b hb
  have hcons := insertBelow_cons id es (.platform c irq (!b.refuses b.calls c)) hb
  unfold platform
  dsimp only [pastMirror]
  rw [hcons]
  cases b.refuses b.calls c && canFail c with
  | true => exact ⟨rfl, Nat.le_succ_of_le hb⟩
  | false => exact ⟨rfl, Nat.le_succ_of_le hb⟩

theorem past_countAccess (a : Access) :
    (countAccess a).Mirrors (pastMirror es k) id id (countAccess a) := by
  intro b hb
  unfold countAccess
  dsimp only [pastMirror]
  cases b.faults.code? b.accesses a with
  | some k => exact ⟨rfl, hb⟩
  | none => exact ⟨rfl, hb⟩

theorem past_peek (a : UInt16) : (peek a).Mirrors (pastMirror es k) id id (peek a) :=
  .bind (past_countAccess _) fun _ => .stateBind fun b _ => .pure (b.visible a)

theorem past_poke (a : UInt16) (v : UInt8) :
    (poke a v).Mirrors (pastMirror es k) id id (poke a v) :=
  .bind (past_countAccess _) fun _ => .update fun _ hb => ⟨rfl, hb⟩

theorem past_serve (n : Nat) : (serve n).Mirrors (pastMirror es k) id id (serve n) :=
  .bind (past_countAccess _) fun _ => .stateBind fun b _ => .pure (b.served n)

theorem past_answer (bytes : List UInt8) :
    (answer bytes).Mirrors (pastMirror es k) id id (answer bytes) := by
  unfold answer
  split
  · refine .ite (fun _ => .bind (past_peek _) fun _ => .pure _) fun _ => ?_
    split
    · exact .bind (past_poke _ _) fun _ => .pure _
    · exact .pure _
  · exact .pure _

theorem past_traced {α : Type} {a : Action Board UInt32 α}
    (ha : a.Mirrors (pastMirror es k) id id a) (kind : UInt32 → BusFault)
    (event : Except BusFault α → Event) :
    (traced kind event a).Mirrors (pastMirror es k) id id (traced kind event a) := by
  refine traced_mirrors ha (fun _ => rfl) fun r => ?_
  cases r <;> exact past_note _

/-- The past changes nothing about what is done to the board. -/
theorem past_faithful : (pastMirror es k).Faithful id (fun _ => True) where
  reach_of_le _ := trivial
  irq _ := rfl
  allocation := {
    get _ := rfl
    set _ _ _ _ := rfl
    inv _ _ := trivial
    kept _ _ _ hb := hb }
  log m := by
    rw [m.through_id]
    exact past_note _
  offer _ _ := past_note _
  platform := past_platform
  readRegister := by
    intro a _
    refine .stateBind fun b _ => ?_
    dsimp only [pastMirror]
    cases b.transport with
    | direct => exact past_traced (past_peek a) _ _
    | serial => exact .bind (past_traced (past_answer _) _ _) fun _ => .pure _
  writeRegister := by
    intro a v _
    refine .stateBind fun b _ => ?_
    dsimp only [pastMirror]
    cases b.transport with
    | direct => exact past_traced (past_poke a v) _ _
    | serial => exact .bind (past_traced (past_answer _) _ _) fun _ => .pure _
  readData := by
    intro n
    refine .stateBind fun b _ => ?_
    dsimp only [pastMirror]
    cases b.transport with
    | direct => exact past_traced (past_serve n) _ _
    | serial => exact past_traced (past_serve n) _ _

end Board

/-! ## Scenes -/

/-- What has happened besides: events on the board, just after the first `onBoard` ones, and entries
of the journal, just after the first `inJournal` ones. -/
structure Past (δ : Type) where
  events : List Event
  onBoard : Nat
  entries : List (Entry δ)
  inJournal : Nat

variable {δ : Type}

/-- The entry, of a driver in another state. -/
def Entry.map (g : Driver → Driver) : Entry δ → Entry δ
  | passed d => passed (g d)
  | ended op before after o => ended op (g before) (g after) o

namespace Past

variable (P : Past δ)

abbrev board : Mirror Board := Board.pastMirror P.events P.onBoard

abbrev driver : Mirror Driver := Driver.mirrorOf P.board id

abbrev entry : Entry δ → Entry δ := Entry.map P.driver.image

/-- The scene with this past. -/
def scene : Mirror (Scene δ) where
  image s := {
    driver := P.driver.image s.driver
    sinks := s.sinks
    journal := insertBelow P.entry P.entries P.inJournal s.journal }
  inv s := P.driver.inv s.driver ∧ P.inJournal ≤ s.journal.length

/-- Of a driver only the board has a past. -/
theorem driver_image (d : Driver) :
    P.driver.image d = d.withBoard (P.board.image d.fifo.board) := by
  have hslot : d.completion.mapSlot (Driver.resultThrough id) = d.completion := by
    rw [Driver.resultThrough_id]
    unfold Completion.mapSlot
    rw [Option.map_id]
    rfl
  exact congrArg (fun c => { d with
    fifo := { d.fifo with board := P.board.image d.fifo.board }, completion := c }) hslot

theorem completion_image (s : Scene δ) :
    (P.scene.image s).driver.completion = s.driver.completion := by
  change (P.driver.image s.driver).completion = _
  rw [driver_image]
  rfl

theorem driverPart_mirrored : Scene.driverPart.Mirrored P.scene P.driver where
  get _ := rfl
  set d s _ hs := congrArg (fun l => { s with driver := P.driver.image d, journal := l })
    (insertBelow_cons P.entry P.entries (.passed d) hs.2).symm
  inv _ hs := hs.1
  kept _ _ hd hs := ⟨hd, Nat.le_succ_of_le hs.2⟩

theorem boardPart_mirrored : Scene.boardPart.Mirrored P.scene P.board :=
  P.driverPart_mirrored.andThen Driver.boardPart_mirrored

theorem sinkPart_mirrored (i : Nat) : (Scene.sinkPart i).Mirrored P.scene (.still δ) where
  get _ := rfl
  set _ _ _ _ := rfl
  inv _ _ := trivial
  kept _ _ _ hs := hs

/-- What has happened besides since a scene: events on its board, and entries in its journal. -/
def since (events : List Event) (entries : List (Entry δ)) (s : Scene δ) : Past δ where
  events
  onBoard := s.driver.fifo.board.record.length
  entries
  inJournal := s.journal.length

theorem inv_since (events : List Event) (entries : List (Entry δ)) (s : Scene δ) :
    (since events entries s).scene.inv s := ⟨Nat.le_refl _, Nat.le_refl _⟩

/-- At that scene itself it has happened last. -/
theorem image_since (events : List Event) (entries : List (Entry δ)) (s : Scene δ) :
    (since events entries s).scene.image s = { s with
      driver := s.driver.withBoard
        { s.driver.fifo.board with record := events ++ s.driver.fifo.board.record }
      journal := entries ++ s.journal } := by
  have hrecord := insertBelow_length id events s.driver.fifo.board.record
  have hjournal := insertBelow_length (since events entries s).entry entries s.journal
  unfold scene
  dsimp only
  rw [driver_image]
  exact congrArg₂ (fun r l => { s with
    driver := s.driver.withBoard { s.driver.fifo.board with record := r }, journal := l })
    hrecord hjournal

theorem faithful : P.board.Faithful id (fun _ => True) := Board.past_faithful

/-- A call that mirrors itself ends as without this past. -/
theorem run_eq {α : Type} {a : Call (Scene δ) α}
    (ha : a.Mirrors P.scene (Failure.through id) id a) {s : Scene δ} (hs : P.scene.inv s) :
    a (P.scene.image s) = ((a s).1, P.scene.image (a s).2) ∧ P.scene.inv (a s).2 := by
  obtain ⟨hrun, hinv⟩ := ha s hs
  rw [Failure.through_id, Outcome.mapError_id_map_id] at hrun
  exact ⟨hrun, hinv⟩

/-- The disturbance is the same with this past. -/
def Spared (x : Disturbance) : Prop :=
  ∀ b, P.board.inv b → x.change (P.board.image b) = P.board.image (x.change b)

end Past

theorem Disturbance.past_kept (x : Disturbance) {es : List Event} {k : Nat} {b : Board}
    (h : (Board.pastMirror es k).inv b) : (Board.pastMirror es k).inv (x.change b) :=
  Nat.le_trans h (Nat.le_of_eq (congrArg List.length (x.record_eq b)).symm)

/-! ## Operations -/

mutual

/-- The disturbances of an operation, also of those at its interrupt points. -/
def Operation.disturbances : Operation δ → List Disturbance
  | .disturb x => [x]
  | .capture afterArm afterWait =>
    Operation.allDisturbances afterArm ++ Operation.allDisturbances afterWait
  | .submit _ _ afterArm afterWait =>
    Operation.allDisturbances afterArm ++ Operation.allDisturbances afterWait
  | .showAttribute _ _ afterArm afterWait =>
    Operation.allDisturbances afterArm ++ Operation.allDisturbances afterWait
  | _ => []

def Operation.allDisturbances : List (Operation δ) → List Disturbance
  | [] => []
  | op :: rest => op.disturbances ++ Operation.allDisturbances rest

end

theorem Scene.note_mirrored (P : Past δ) (op : Operation δ) (d : Driver) {s : Scene δ}
    (o : Outcome Cause Unit) (hs : P.scene.inv s) :
    Scene.note op (P.driver.image d) (o, P.scene.image s) = P.scene.image (Scene.note op d (o, s)) ∧
      P.scene.inv (Scene.note op d (o, s)) :=
  ⟨congrArg (fun l => { P.scene.image s with journal := l })
    (insertBelow_cons P.entry P.entries (.ended op d s.driver o) hs.2).symm,
    hs.1, Nat.le_succ_of_le hs.2⟩

namespace Operation

variable [Sink δ] (P : Past δ)

theorem disturb_mirrors {x : Disturbance} (h : P.Spared x) :
    (disturb x : Operation δ).call.Mirrors P.scene (Failure.through id) id (disturb x).call :=
  .within P.boardPart_mirrored (.update fun b hb => ⟨h b hb, x.past_kept hb⟩)

section InterruptPoints

variable {P} {afterArm afterWait : List (Operation δ)}
  (hArm : ∀ s, P.scene.inv s →
    runAll afterArm (P.scene.image s) = P.scene.image (runAll afterArm s) ∧
      P.scene.inv (runAll afterArm s))
  (hWait : ∀ s, P.scene.inv s →
    runAll afterWait (P.scene.image s) = P.scene.image (runAll afterWait s) ∧
      P.scene.inv (runAll afterWait s))
include hArm hWait

theorem capture_mirrors :
    (Driver.captureOn Scene.driverPart (during afterArm afterWait)).Mirrors P.scene
      (Failure.through id) id (Driver.captureOn Scene.driverPart (during afterArm afterWait)) :=
  Driver.captureOn_mirrors P.faithful P.driverPart_mirrored (.update hArm) (.update hWait)

end InterruptPoints

mutual

/-- The induction goes into the operations at the interrupt points. -/
theorem call_mirrors : ∀ op : Operation δ, (∀ x ∈ op.disturbances, P.Spared x) →
    op.call.Mirrors P.scene (Failure.through id) id op.call
  | disturb x, h => disturb_mirrors P (h x List.mem_cons_self)
  | changeSink i f, _ => .within (P.sinkPart_mirrored i)
    (.update fun x _ => (⟨rfl, trivial⟩ : f x = f x ∧ True))
  | converter s, _ => .within P.boardPart_mirrored
    (Answer.asCall_mirrors id (s.run_respected P.faithful fun _ _ => trivial))
  | interrupt, _ =>
    .mapError (.within P.driverPart_mirrored (Driver.onInterrupt_mirrors P.faithful)) nofun
  | capture afterArm afterWait, h =>
    have ⟨ha, hw⟩ := List.forall_mem_append.mp h
    capture_mirrors (runAll_mirrors afterArm ha) (runAll_mirrors afterWait hw)
  | submit n i afterArm afterWait, h =>
    have ⟨ha, hw⟩ := List.forall_mem_append.mp h
    Driver.submitOn_mirrors P.faithful P.driverPart_mirrored (P.sinkPart_mirrored i)
      (capture_mirrors (runAll_mirrors afterArm ha) (runAll_mirrors afterWait hw)) n
  | setWatermark n, _ =>
    .within P.driverPart_mirrored (Driver.setWatermark_mirrors P.faithful n)
  | setTimeout polls, _ =>
    .within P.driverPart_mirrored (Driver.setCaptureTimeout_mirrors polls)
  | showAttribute index room afterArm afterWait, h =>
    have ⟨ha, hw⟩ := List.forall_mem_append.mp h
    .bind (Driver.showAttributeOn_mirrors P.faithful P.driverPart_mirrored
      (capture_mirrors (runAll_mirrors afterArm ha) (runAll_mirrors afterWait hw)) index room)
      fun _ => .pure ()
  | storeAttribute index input, _ =>
    .within P.driverPart_mirrored (Driver.storeAttribute_mirrors P.faithful index input)
  | readDocumented a, _ =>
    .bind (.within P.driverPart_mirrored
      (Driver.onBoard_mirrors (Converter.readDocumented_mirrors P.faithful a))) fun _ => .pure ()
  | writeDocumented a v, _ =>
    .within P.driverPart_mirrored
      (Driver.onBoard_mirrors (Converter.writeDocumented_mirrors P.faithful a v))

theorem runAll_mirrors : ∀ ops : List (Operation δ),
    (∀ x ∈ allDisturbances ops, P.Spared x) → ∀ s, P.scene.inv s →
    runAll ops (P.scene.image s) = P.scene.image (runAll ops s) ∧ P.scene.inv (runAll ops s)
  | [], _ => fun _ hs => ⟨rfl, hs⟩
  | op :: rest, h => by
    intro s hs
    obtain ⟨hop, hrest⟩ := List.forall_mem_append.mp h
    obtain ⟨hrun, ht⟩ := P.run_eq (call_mirrors op hop) hs
    obtain ⟨hnote, hinv⟩ := Scene.note_mirrored P op s.driver (op.call s).1 ht
    obtain ⟨hruns, hu⟩ := runAll_mirrors rest hrest _ hinv
    refine ⟨?_, hu⟩
    unfold runAll
    rw [hrun]
    exact (congrArg (runAll rest) hnote).trans hruns

end

end Operation

end AdcCapture
