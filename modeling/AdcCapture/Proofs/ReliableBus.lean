/-
  Calls on a board on which no access fails from now on, over either bus. A call sees of such a
  board only the converter itself: its registers, its FIFO, and whether the full flag follows the
  FIFO mode (`Chip`). Every access succeeds and does to the converter what its name says
  (`Board.Answers`), so a typed call is the sequence of what its accesses do. What is not the
  converter's stays as it is, but for the count of the accesses and the record of them
  (`Board.Accessed`).
-/
import AdcCapture.Proofs.FieldValues

namespace AdcCapture

theorem RegisterFile.set_set (r : RegisterFile) (a : UInt16) (v w : UInt8) :
    (r.set a v).set a w = r.set a w := by
  by_cases h : a.toNat < 128 <;> simp [set, h]

/-- A byte that is stored where it was found changes nothing. -/
theorem RegisterFile.set_get (r : RegisterFile) (a : UInt16) : r.set a (r.get a) = r := by
  by_cases h : a.toNat < 128 <;> simp [set, get, h]

/-! ## The converter by itself -/

/-- The converter without the buses to it and the record of them. -/
structure Chip where
  registers : RegisterFile
  fifo : Array UInt8
  fillOnArm : Bool

def Board.chip (b : Board) : Chip := ⟨b.registers, b.fifo, b.fillOnArm⟩

namespace Chip

def write (a : UInt16) (v : UInt8) (k : Chip) : Chip := { k with registers := k.registers.set a v }

/-- The value of a field of one register. -/
def narrow (f : Field) (k : Chip) : UInt8 := f.get (k.registers.get f.address)

def setField (f : Field) (v : UInt8) (k : Chip) : Chip :=
  k.write f.address (f.put v (k.registers.get f.address))

def setWide (f : WideField) (v : UInt16) (k : Chip) : Chip :=
  (k.write f.low (f.lowByte v)).write f.high (f.highByte v)

/-- The value of a field of two registers. -/
def wide (f : WideField) (k : Chip) : UInt16 :=
  f.join (k.registers.get f.high) (k.registers.get f.low)

/-- Of two values put into a field one after the other, the second one counts. -/
theorem setField_setField {f : Field} (hf : f.address.toNat < 128) (v w : UInt8) (k : Chip) :
    (k.setField f v).setField f w = k.setField f w := by
  have hbyte : (k.setField f v).registers.get f.address =
      f.put v (k.registers.get f.address) := RegisterFile.get_set_self _ _ hf
  change (k.setField f v).write f.address (f.put w ((k.setField f v).registers.get f.address)) = _
  rw [hbyte, Field.put_put]
  exact congrArg (fun r => { k with registers := r }) (RegisterFile.set_set _ _ _ _)

/-- A value that is put back into its field changes nothing. -/
theorem setField_narrow {f : Field} (hf : f.offset.toNat < 8) (k : Chip) :
    k.setField f (k.narrow f) = k := by
  unfold setField narrow write
  rw [Field.put_get hf, RegisterFile.set_get]

/-- A field of one register is not seen in another one. -/
theorem narrow_setField_of_ne {f g : Field} (h : f.address ≠ g.address) (v : UInt8) (k : Chip) :
    (k.setField f v).narrow g = k.narrow g :=
  congrArg g.get (RegisterFile.get_set_of_ne _ _ h)

/-- A value that was put into two registers is found there, cut to the width of the field. -/
theorem wide_setWide {f : WideField} (hf : f.Placed) (v : UInt16) (k : Chip) :
    (k.setWide f v).wide f = v &&& f.mask := by
  obtain ⟨-, -, hlow, hhigh, hne, -⟩ := hf
  have hhighByte : (k.setWide f v).registers.get f.high = f.highByte v :=
    RegisterFile.get_set_self _ _ hhigh
  have hlowByte : (k.setWide f v).registers.get f.low = f.lowByte v :=
    (RegisterFile.get_set_of_ne _ _ hne.symm).trans (RegisterFile.get_set_self _ _ hlow)
  unfold wide
  rw [hhighByte, hlowByte, WideField.join_bytes]

def setMode (m : FifoMode) (k : Chip) : Chip := k.setField .fifoMode m.code

/-- The FIFO mode that the registers hold. -/
def mode (k : Chip) : FifoMode :=
  .ofBits (Field.fifoMode.get (k.registers.get Register.generalConfig))

theorem get_setMode (m : FifoMode) (k : Chip) :
    (k.setMode m).registers.get Register.generalConfig =
      Field.fifoMode.put m.code (k.registers.get Register.generalConfig) :=
  RegisterFile.get_set_self _ _ (by decide)

theorem mode_setMode (m : FifoMode) (k : Chip) : (k.setMode m).mode = m := by
  unfold mode
  rw [get_setMode, Field.get_put]
  cases m <;> decide

/-- Of two modes set one after the other, the second one counts. -/
theorem setMode_setMode (m m' : FifoMode) (k : Chip) : (k.setMode m).setMode m' = k.setMode m' :=
  setField_setField (by decide) _ _ k

theorem mode_write_of_ne {a : UInt16} (v : UInt8) (k : Chip) (h : a ≠ Register.generalConfig) :
    (k.write a v).mode = k.mode :=
  congrArg (fun x => FifoMode.ofBits (Field.fifoMode.get x)) (RegisterFile.get_set_of_ne _ v h)

/-- What a read of a register finds. -/
def visible (a : UInt16) (k : Chip) : UInt8 :=
  ({ registers := k.registers, fifo := k.fifo, fillOnArm := k.fillOnArm } : Board).visible a

/-- Where the full flag does not follow the FIFO mode, every register is read as it is. -/
theorem visible_plain {k : Chip} (h : k.fillOnArm = false) (a : UInt16) :
    k.visible a = k.registers.get a := by
  unfold visible Board.visible
  dsimp only
  rw [h, Bool.and_false]
  rfl

/-- What a read finds depends on the byte, and on the FIFO mode if the full flag follows it. -/
theorem visible_congr {k l : Chip} {a : UInt16} (hfill : l.fillOnArm = k.fillOnArm)
    (ha : l.registers.get a = k.registers.get a) (hmode : l.narrow .fifoMode = k.narrow .fifoMode) :
    l.visible a = k.visible a := by
  have hbits : Field.fifoMode.get (l.registers.get Register.generalConfig) =
      Field.fifoMode.get (k.registers.get Register.generalConfig) := hmode
  unfold visible Board.visible
  dsimp only
  rw [hfill, ha, hbits]

end Chip

namespace Board

theorem visible_of_chip {b c : Board} (h : b.chip = c.chip) (a : UInt16) :
    b.visible a = c.visible a := by
  obtain ⟨hregisters, hfill⟩ : b.registers = c.registers ∧ b.fillOnArm = c.fillOnArm :=
    ⟨congrArg Chip.registers h, congrArg Chip.fillOnArm h⟩
  unfold visible
  rw [hregisters, hfill]

theorem visible_of_ne (b : Board) {a : UInt16} (h : a ≠ Register.deviceStatus) :
    b.visible a = b.chip.registers.get a := by
  unfold visible
  dsimp only
  rw [decide_eq_false h]
  rfl

/-! ## What a call answers -/

/-- From now on no access to the converter fails. -/
def Reliable (b : Board) : Prop := ∀ k a, b.accesses ≤ k → b.faults.code? k a = none

/-- The board `c` comes from `b` by accesses to the converter, and by messages. -/
structure Accessed (b c : Board) : Prop where
  accesses : b.accesses ≤ c.accesses
  rest : c = { b with registers := c.registers, accesses := c.accesses, record := c.record }

namespace Accessed

variable {b c d : Board}

theorem refl (b : Board) : b.Accessed b := ⟨Nat.le_refl _, rfl⟩

theorem trans (h : b.Accessed c) (h' : c.Accessed d) : b.Accessed d where
  accesses := Nat.le_trans h.accesses h'.accesses
  rest := by
    rw [h'.rest, h.rest]

theorem noted (e : Event) (b : Board) : b.Accessed { b with record := e :: b.record } :=
  ⟨Nat.le_refl _, rfl⟩

theorem faults (h : b.Accessed c) : c.faults = b.faults := by rw [h.rest]

theorem calls (h : b.Accessed c) : c.calls = b.calls := by rw [h.rest]

theorem allocator (h : b.Accessed c) : c.allocator = b.allocator := by rw [h.rest]

end Accessed

/-- Calls that make nothing but accesses. -/
def Rules.accessing : Rules where
  permits x := x ≠ .reserve ∧ x.callsPlatform = false
  allows := Accessed
  refl := .refl
  trans := .trans
  counted _ := ⟨Nat.le_succ _, rfl⟩
  noted b e _ _ := .noted e b
  written _ _ _ _ := ⟨Nat.le_refl _, rfl⟩
  called _ _ _ _ h := nomatch h.2
  reserved _ _ h := absurd rfl h.1

theorem Reliable.after {b c : Board} (h : b.Reliable) (hc : b.Accessed c) : c.Reliable := by
  intro k a hk
  rw [hc.faults]
  exact h k a (Nat.le_trans hc.accesses hk)

variable {ε ε' α β : Type}

/-- On this board the call gives this value, makes nothing but accesses, and leaves this
converter. -/
def Answers (a : Action Board ε α) (b : Board) (v : α) (k : Chip) : Prop :=
  ∃ c, a b = (.ok v, c) ∧ b.Accessed c ∧ c.chip = k

namespace Answers

variable {a : Action Board ε α} {b : Board} {v : α} {w : β} {k l : Chip}

theorem bind (ha : Answers a b v k) {f : α → Action Board ε β}
    (hf : ∀ c : Board, b.Accessed c → c.chip = k → Answers (f v) c w l) :
    Answers (a >>= f) b w l := by
  obtain ⟨c, ha, hc, hk⟩ := ha
  obtain ⟨d, hd, hrest, hl⟩ := hf c hc hk
  exact ⟨d, (Action.bind_ok _ ha f).trans hd, hc.trans hrest, hl⟩

theorem pure (v : α) (b : Board) : Answers (Pure.pure v : Action Board ε α) b v b.chip :=
  ⟨b, rfl, .refl b, rfl⟩

theorem map (ha : Answers a b v k) (f : α → β) :
    Answers (a >>= fun x => Pure.pure (f x)) b (f v) k :=
  ha.bind fun c _ hk => hk ▸ .pure (f v) c

theorem mapError (ha : Answers a b v k) (f : ε → ε') : Answers (a.mapError f) b v k := by
  obtain ⟨c, ha, hrest⟩ := ha
  refine ⟨c, ?_, hrest⟩
  unfold Action.mapError
  rw [ha]
  rfl

theorem traced {kind : UInt32 → BusFault} {event : Except BusFault α → Event}
    {a : Action Board UInt32 α} (ha : Answers a b v k) :
    Answers (Board.traced kind event a) b v k := by
  obtain ⟨c, ha, hc, hk⟩ := ha.mapError kind
  exact ⟨_, Action.bind_ok _ (Action.attempt_ok _ ha) _, hc.trans (.noted (event (.ok v)) c), hk⟩

end Answers

namespace Reliable

variable {b : Board} (h : b.Reliable)
include h

/-! ### Accesses -/

theorem countAccess (a : Access) : Answers (Board.countAccess a) b () b.chip := by
  refine ⟨{ b with accesses := b.accesses + 1 }, ?_, ⟨Nat.le_succ _, rfl⟩, rfl⟩
  unfold Board.countAccess
  dsimp only
  rw [h b.accesses a (Nat.le_refl _)]

theorem peek (a : UInt16) : Answers (Board.peek a) b (b.visible a) b.chip :=
  (h.countAccess _).bind fun c _ hk => ⟨c, by rw [← visible_of_chip hk]; rfl, .refl c, hk⟩

theorem poke (a : UInt16) (v : UInt8) : Answers (Board.poke a v) b () (b.chip.write a v) :=
  (h.countAccess _).bind fun _ _ hk => ⟨_, rfl, ⟨Nat.le_refl _, rfl⟩, congrArg (Chip.write a v) hk⟩

theorem serve (n : Nat) : Answers (Board.serve n) b (b.served n) b.chip := by
  refine (h.countAccess _).bind fun c _ hk => ⟨c, ?_, .refl c, hk⟩
  have hfifo : c.fifo = b.fifo := congrArg Chip.fifo hk
  have hserved : c.served n = b.served n := by
    unfold served
    rw [hfifo]
  rw [← hserved]
  rfl

theorem answer_encode_read (a : UInt16) :
    Answers (Board.answer (Instruction.encode ⟨true, a⟩)) b [b.visible (Instruction.wired a)]
      b.chip := by
  rw [Board.answer_read]
  exact (h.peek _).map _

theorem answer_encode_write (a : UInt16) (v : UInt8) :
    Answers (Board.answer (Instruction.encode ⟨false, a⟩ ++ [v])) b []
      (b.chip.write (Instruction.wired a) v) := by
  rw [Board.answer_write]
  exact (h.poke _ v).map _

theorem readRegister {a : UInt16} (ha : Instruction.wired a = a) :
    Answers (Board.readRegister a) b (b.visible a) b.chip := by
  have hdirect : Answers (Board.traced .code (.read a) (Board.peek a)) b (b.visible a) b.chip :=
    (h.peek a).traced
  have hserial : Answers (do return (← Board.transfer (Instruction.encode ⟨true, a⟩)).headD 0) b
      (b.visible a) b.chip := by
    have htransfer := ((h.answer_encode_read a).traced.map (·.headD 0) :
      Answers (do return (← Board.transfer _).headD 0) b _ _)
    rw [ha] at htransfer
    exact htransfer
  unfold Board.readRegister Answers
  rw [Action.state_bind]
  cases b.transport with
  | direct => exact hdirect
  | serial => exact hserial

theorem writeRegister {a : UInt16} (v : UInt8) (ha : Instruction.wired a = a) :
    Answers (Board.writeRegister a v) b () (b.chip.write a v) := by
  have hdirect : Answers (Board.traced .code (.write a v) (Board.poke a v)) b ()
      (b.chip.write a v) := (h.poke a v).traced
  have hserial : Answers (do
      let _ ← Board.transfer (Instruction.encode ⟨false, a⟩ ++ [v])
      return ()) b () (b.chip.write a v) := by
    have htransfer := ((h.answer_encode_write a v).traced.map fun _ => () :
      Answers (do let _ ← Board.transfer _; return ()) b _ _)
    rw [ha] at htransfer
    exact htransfer
  unfold Board.writeRegister Answers
  rw [Action.state_bind]
  cases b.transport with
  | direct => exact hdirect
  | serial => exact hserial

theorem readData (n : Nat) : Answers (Board.readData n) b (b.served n) b.chip := by
  unfold Board.readData Answers
  rw [Action.state_bind]
  cases b.transport with
  | direct => exact (h.serve n).traced
  | serial => exact (h.serve n).traced

/-! ### Typed calls -/

theorem read {a : UInt16} (ha : Instruction.wired a = a) :
    Answers (Converter.read a) b (b.visible a) b.chip := (h.readRegister ha).mapError _

theorem write {a : UInt16} (v : UInt8) (ha : Instruction.wired a = a) :
    Answers (Converter.write a v) b () (b.chip.write a v) := (h.writeRegister v ha).mapError _

/-- A register other than the one for the status is read as it is. -/
theorem readStored {a : UInt16} (ha : Instruction.wired a = a) (hs : a ≠ Register.deviceStatus) :
    Answers (Converter.read a) b (b.chip.registers.get a) b.chip := by
  rw [← visible_of_ne b hs]
  exact h.read ha

theorem getField {f : Field} (hf : f.Placed) :
    Answers (Converter.getField f) b (b.chip.narrow f) b.chip :=
  (h.readStored hf.1 hf.2.1).map f.get

theorem getWide {f : WideField} (hf : f.Placed) (hlow : f.low ≠ Register.deviceStatus)
    (hhigh : f.high ≠ Register.deviceStatus) :
    Answers (Converter.getWide f) b (b.chip.wide f) b.chip := by
  refine (h.readStored hf.2.1 hhigh).bind fun c hc hk => ?_
  have hread := ((h.after hc).readStored hf.1 hlow).map (f.join (b.chip.registers.get f.high))
  rw [hk] at hread
  exact hread

theorem setField {f : Field} (v : UInt8) (ha : Instruction.wired f.address = f.address)
    (hs : f.address ≠ Register.deviceStatus) :
    Answers (Converter.setField f v) b () (b.chip.setField f v) := by
  refine (h.readStored ha hs).bind fun c hc hk => ?_
  have hwrite := (h.after hc).write (f.put v (b.chip.registers.get f.address)) ha
  rw [hk] at hwrite
  exact hwrite

theorem setWide {f : WideField} (v : UInt16) (hlow : Instruction.wired f.low = f.low)
    (hhigh : Instruction.wired f.high = f.high) :
    Answers (Converter.setWide f v) b () (b.chip.setWide f v) := by
  refine (h.write _ hlow).bind fun c hc hk => ?_
  have hwrite := (h.after hc).write (f.highByte v) hhigh
  rw [hk] at hwrite
  exact hwrite

theorem setFifoMode (m : FifoMode) : Answers (Converter.setFifoMode m) b () (b.chip.setMode m) :=
  h.setField m.code (by decide) (by decide)

theorem fifoMode : Answers Converter.fifoMode b b.chip.mode b.chip :=
  (h.getField (by decide)).map FifoMode.ofBits

/-- Whether the status register shows the FIFO as full. -/
theorem fifoFull :
    Answers Converter.fifoFull b (b.visible Register.deviceStatus &&& Register.fifoFull ≠ 0)
      b.chip := (h.read (by decide)).map _

end Reliable

end Board

end AdcCapture
