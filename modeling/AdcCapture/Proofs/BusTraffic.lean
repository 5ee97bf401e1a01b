/-
  The accesses to the converter that the record of a board tells of, whichever bus they went over:
  which register was read or written, the byte, and whether that went well (`Board.traffic`). Each
  access is described in full, with what it gives, what it does to the converter and what it adds
  to the traffic: `Converter.read_ends`, `write_ends`, `after_readData`. From these follows the one
  way in which a field of a register is set (`SetFieldEnds`), and with it the FIFO mode.
-/
import AdcCapture.Proofs.InterruptReadouts
import AdcCapture.Proofs.ReliableBus

namespace AdcCapture

/-- An access to the converter, the same on either bus. -/
inductive BusAccess where
  /-- A read of a register, with the byte unless it failed. -/
  | read (address : UInt16) (value : Option UInt8)
  | write (address : UInt16) (value : UInt8) (done : Bool)
  | data (bytes : Nat) (done : Bool)
deriving DecidableEq, Repr

/-- Whether the access is one to this register that failed. -/
def BusAccess.failsAt (a : UInt16) : BusAccess → Bool
  | read a' none => a' = a
  | write a' _ false => a' = a
  | _ => false

/-- The access that an event tells of, if it tells of one. -/
def Event.busAccess? : Event → Option BusAccess
  | read a r => some (.read a r.toOption)
  | write a v r => some (.write a v (succeeded r))
  | readData n r => some (.data n (succeeded r))
  | transfer (high :: low :: rest) r =>
    let i := Instruction.decode high low
    if i.isRead then some (.read i.address (r.toOption.bind List.head?))
    else rest.head?.map fun v => .write i.address v (succeeded r)
  | stream n r => some (.data n (succeeded r))
  | _ => none

namespace Board

/-- The accesses to the converter so far, the latest first. -/
def traffic (b : Board) : List BusAccess := b.record.filterMap Event.busAccess?

/-- How many accesses to a register have failed so far. -/
def failures (a : UInt16) (b : Board) : Nat := b.traffic.countP (BusAccess.failsAt a)

/-- The board `c` comes from `b` by these accesses, the latest first, and its converter is `k`. -/
structure After (b : Board) (xs : List BusAccess) (k : Chip) (c : Board) : Prop where
  chip : c.chip = k
  traffic : c.traffic = xs ++ b.traffic

namespace After

variable {b c d : Board} {xs ys : List BusAccess} {k l : Chip}

theorem refl (b : Board) : b.After [] b.chip b := ⟨rfl, rfl⟩

theorem trans (h : b.After xs k c) (h' : c.After ys l d) : b.After (ys ++ xs) l d where
  chip := h'.chip
  traffic := by rw [h'.traffic, h.traffic, List.append_assoc]

theorem failures (h : b.After xs k c) (a : UInt16) :
    c.failures a = xs.countP (BusAccess.failsAt a) + b.failures a := by
  unfold Board.failures
  rw [h.traffic, List.countP_append]

theorem failures_le (h : b.After xs k c) (a : UInt16) : b.failures a ≤ c.failures a :=
  (h.failures a).symm ▸ Nat.le_add_left _ _

end After

theorem traffic_cons {b : Board} {e : Event} {x : BusAccess} (h : e.busAccess? = some x) :
    ({ b with record := e :: b.record } : Board).traffic = x :: b.traffic :=
  List.filterMap_cons_some h

theorem traffic_cons_none {b : Board} {e : Event} (h : e.busAccess? = none) :
    ({ b with record := e :: b.record } : Board).traffic = b.traffic :=
  List.filterMap_cons_none h

/-- A message in the record is no access. -/
theorem after_noted (m : Message) (b : Board) : b.After [] b.chip (b.noted m) :=
  ⟨rfl, traffic_cons_none rfl⟩

/-- Nothing is done to the converter, and no access to it is made. -/
def aside : Contract Board where
  inv _ := True
  allows b c := b.After [] b.chip c
  refl b := .refl b
  trans h h' := by
    have hboth := h.trans h'
    rw [h.chip] at hboth
    exact hboth

theorem log_aside {ε : Type} (m : Message) : (log m : Action Board ε Unit).Obeys aside :=
  .update fun b _ => ⟨trivial, after_noted m b⟩

/-! ## Accesses below the bus -/

/-- The board when one more access has been counted. -/
def counted (b : Board) : Board := { b with accesses := b.accesses + 1 }

theorem countAccess_ends (a : Access) (b : Board) :
    countAccess a b = (.ok (), b.counted) ∨ ∃ k, countAccess a b = (.error k, b.counted) := by
  unfold countAccess counted
  dsimp only
  split
  · exact .inr ⟨_, rfl⟩
  · exact .inl rfl

theorem peek_ends (a : UInt16) (b : Board) :
    peek a b = (.ok (b.visible a), b.counted) ∨ ∃ k, peek a b = (.error k, b.counted) := by
  rcases countAccess_ends (.read a) b with h | ⟨k, h⟩
  · exact .inl (Action.bind_ok _ h _)
  · exact .inr ⟨k, Action.bind_error _ h _⟩

theorem poke_ends (a : UInt16) (v : UInt8) (b : Board) :
    poke a v b = (.ok (), { b.counted with registers := b.registers.set a v }) ∨
      ∃ k, poke a v b = (.error k, b.counted) := by
  rcases countAccess_ends (.write a) b with h | ⟨k, h⟩
  · exact .inl (Action.bind_ok _ h _)
  · exact .inr ⟨k, Action.bind_error _ h _⟩

theorem serve_ends (n : Nat) (b : Board) :
    serve n b = (.ok (b.served n), b.counted) ∨ ∃ k, serve n b = (.error k, b.counted) := by
  rcases countAccess_ends .data b with h | ⟨k, h⟩
  · exact .inl (Action.bind_ok _ h _)
  · exact .inr ⟨k, Action.bind_error _ h _⟩

section Traced

variable {α : Type} (kind : UInt32 → BusFault) (event : Except BusFault α → Event)
  {a : Action Board UInt32 α} {b c : Board}

theorem traced_ok {v : α} (h : a b = (.ok v, c)) :
    traced kind event a b = (.ok v, { c with record := event (.ok v) :: c.record }) := by
  unfold traced Action.mapError
  rw [Action.bind_apply]
  unfold Action.attempt
  dsimp only
  rw [h]
  rfl

theorem traced_error {k : UInt32} (h : a b = (.error k, c)) :
    traced kind event a b =
      (.error (kind k), { c with record := event (.error (kind k)) :: c.record }) := by
  unfold traced Action.mapError
  rw [Action.bind_apply]
  unfold Action.attempt
  dsimp only
  rw [h]
  rfl

end Traced

/-! ## Accesses over either bus -/

section Registers

variable {a : UInt16} (ha : Instruction.wired a = a)
include ha

theorem busAccess?_read (r : Except BusFault (List UInt8)) :
    (Event.transfer (Instruction.encode ⟨true, a⟩) r).busAccess? =
      some (.read a (r.toOption.bind List.head?)) := by
  obtain ⟨high, low, henc, hdec⟩ := Instruction.encode_decodes ⟨true, a⟩
  rw [henc]
  unfold Event.busAccess?
  dsimp only
  rw [hdec, if_pos rfl, ha]

theorem busAccess?_write (v : UInt8) (r : Except BusFault (List UInt8)) :
    (Event.transfer (Instruction.encode ⟨false, a⟩ ++ [v]) r).busAccess? =
      some (.write a v (Event.succeeded r)) := by
  obtain ⟨high, low, henc, hdec⟩ := Instruction.encode_decodes ⟨false, a⟩
  rw [henc, List.cons_append, List.cons_append]
  unfold Event.busAccess?
  dsimp only
  rw [hdec, if_neg Bool.false_ne_true, ha]
  rfl

/-- A register is read over either bus, or the bus has failed; the converter stays as it is. -/
theorem readRegister_ends (b : Board) :
    (∃ c, readRegister a b = (.ok (b.visible a), c) ∧
        b.After [.read a (some (b.visible a))] b.chip c) ∨
      ∃ f c, readRegister a b = (.error f, c) ∧ b.After [.read a none] b.chip c := by
  unfold readRegister
  rw [Action.state_bind]
  cases b.transport with
  | direct =>
    rcases peek_ends a b with h | ⟨k, h⟩
    · exact .inl ⟨_, traced_ok _ _ h, rfl, traffic_cons rfl⟩
    · exact .inr ⟨_, _, traced_error _ _ h, rfl, traffic_cons rfl⟩
  | serial =>
    have hanswer := congrFun (answer_read a) b
    rw [ha] at hanswer
    rcases peek_ends a b with h | ⟨k, h⟩
    · rw [Action.bind_ok _ h] at hanswer
      refine .inl ⟨_, Action.bind_ok _ (traced_ok _ _ hanswer) _, rfl, ?_⟩
      exact traffic_cons (busAccess?_read ha (.ok [b.visible a]))
    · rw [Action.bind_error _ h] at hanswer
      refine .inr ⟨_, _, Action.bind_error _ (traced_error _ _ hanswer) _, rfl, ?_⟩
      exact traffic_cons (busAccess?_read ha (.error _))

/-- A register is written over either bus, or the bus has failed and nothing is changed. -/
theorem writeRegister_ends (v : UInt8) (b : Board) :
    (∃ c, writeRegister a v b = (.ok (), c) ∧
        b.After [.write a v true] (b.chip.write a v) c) ∨
      ∃ f c, writeRegister a v b = (.error f, c) ∧ b.After [.write a v false] b.chip c := by
  unfold writeRegister
  rw [Action.state_bind]
  cases b.transport with
  | direct =>
    rcases poke_ends a v b with h | ⟨k, h⟩
    · exact .inl ⟨_, traced_ok _ _ h, rfl, traffic_cons rfl⟩
    · exact .inr ⟨_, _, traced_error _ _ h, rfl, traffic_cons rfl⟩
  | serial =>
    have hanswer := congrFun (answer_write a v) b
    rw [ha] at hanswer
    rcases poke_ends a v b with h | ⟨k, h⟩
    · rw [Action.bind_ok _ h] at hanswer
      refine .inl ⟨_, Action.bind_ok _ (traced_ok _ _ hanswer) _, rfl, ?_⟩
      exact traffic_cons (busAccess?_write ha v (.ok []))
    · rw [Action.bind_error _ h] at hanswer
      refine .inr ⟨_, _, Action.bind_error _ (traced_error _ _ hanswer) _, rfl, ?_⟩
      exact traffic_cons (busAccess?_write ha v (.error _))

end Registers

end Board

namespace Converter

variable {a : UInt16} (ha : Instruction.wired a = a)

include ha in
theorem read_ends (b : Board) :
    (∃ c, read a b = (.ok (b.visible a), c) ∧ b.After [.read a (some (b.visible a))] b.chip c) ∨
      ∃ f c, read a b = (.error (.bus f), c) ∧ b.After [.read a none] b.chip c := by
  unfold read Action.mapError
  rcases Board.readRegister_ends ha b with ⟨c, h, hc⟩ | ⟨f, c, h, hc⟩
  · rw [h]
    exact .inl ⟨c, rfl, hc⟩
  · rw [h]
    exact .inr ⟨f, c, rfl, hc⟩

include ha in
theorem write_ends (v : UInt8) (b : Board) :
    (∃ c, write a v b = (.ok (), c) ∧ b.After [.write a v true] (b.chip.write a v) c) ∨
      ∃ f c, write a v b = (.error (.bus f), c) ∧ b.After [.write a v false] b.chip c := by
  unfold write Action.mapError
  rcases Board.writeRegister_ends ha v b with ⟨c, h, hc⟩ | ⟨f, c, h, hc⟩
  · rw [h]
    exact .inl ⟨c, rfl, hc⟩
  · rw [h]
    exact .inr ⟨f, c, rfl, hc⟩

/-- A readout of the FIFO is one access that asks for as many bytes as it was told to. -/
theorem after_readData (n : Nat) (b : Board) :
    ∃ done, b.After [.data n done] b.chip (readData n b).2 := by
  unfold readData Action.mapError Board.readData
  rw [Action.state_bind]
  cases b.transport with
  | direct =>
    rcases Board.serve_ends n b with h | ⟨k, h⟩
    · dsimp only
      rw [Board.traced_ok _ _ h]
      exact ⟨true, rfl, Board.traffic_cons rfl⟩
    · dsimp only
      rw [Board.traced_error _ _ h]
      exact ⟨false, rfl, Board.traffic_cons rfl⟩
  | serial =>
    rcases Board.serve_ends n b with h | ⟨k, h⟩
    · dsimp only
      rw [Board.traced_ok _ _ h]
      exact ⟨true, rfl, Board.traffic_cons rfl⟩
    · dsimp only
      rw [Board.traced_error _ _ h]
      exact ⟨false, rfl, Board.traffic_cons rfl⟩

/-! ## Fields -/

/-- How setting a field can end: its register could not be read, or not be written, or the field
is set. -/
inductive SetFieldEnds (f : Field) (v : UInt8) (b : Board) :
    Outcome Cause Unit × Board → Prop where
  | unread {e : BusFault} {c : Board} (h : b.After [.read f.address none] b.chip c) :
      SetFieldEnds f v b (.error (.bus e), c)
  | unwritten {e : BusFault} {c : Board}
      (h : b.After [.write f.address (f.put v (b.registers.get f.address)) false,
        .read f.address (some (b.registers.get f.address))] b.chip c) :
      SetFieldEnds f v b (.error (.bus e), c)
  | set {c : Board}
      (h : b.After [.write f.address (f.put v (b.registers.get f.address)) true,
        .read f.address (some (b.registers.get f.address))] (b.chip.setField f v) c) :
      SetFieldEnds f v b (.ok (), c)

theorem setField_ends {f : Field} (v : UInt8) (ha : Instruction.wired f.address = f.address)
    (hs : f.address ≠ Register.deviceStatus) (b : Board) :
    SetFieldEnds f v b (setField f v b) := by
  have hseen : b.visible f.address = b.registers.get f.address := Board.visible_of_ne b hs
  rcases read_ends ha b with ⟨c, hread, hc⟩ | ⟨e, c, hread, hc⟩
  · rw [hseen] at hread hc
    have hset : setField f v b = write f.address (f.put v (b.registers.get f.address)) c :=
      Action.bind_ok _ hread _
    rcases write_ends ha (f.put v (b.registers.get f.address)) c with
      ⟨d, hwrite, hd⟩ | ⟨e, d, hwrite, hd⟩
    · rw [hset, hwrite]
      rw [hc.chip] at hd
      exact .set (hc.trans hd)
    · rw [hset, hwrite]
      rw [hc.chip] at hd
      exact .unwritten (hc.trans hd)
  · have hset : setField f v b = (.error (.bus e), c) := Action.bind_error _ hread _
    rw [hset]
    exact .unread hc

/-- How setting a field of two registers can end: the low byte could not be written, or the high
byte could not and the low one stays written, or the field is set. -/
inductive SetWideEnds (f : WideField) (v : UInt16) (b : Board) :
    Outcome Cause Unit × Board → Prop where
  | lowUnwritten {e : BusFault} {c : Board}
      (h : b.After [.write f.low (f.lowByte v) false] b.chip c) :
      SetWideEnds f v b (.error (.bus e), c)
  | highUnwritten {e : BusFault} {c : Board}
      (h : b.After [.write f.high (f.highByte v) false, .write f.low (f.lowByte v) true]
        (b.chip.write f.low (f.lowByte v)) c) :
      SetWideEnds f v b (.error (.bus e), c)
  | set {c : Board}
      (h : b.After [.write f.high (f.highByte v) true, .write f.low (f.lowByte v) true]
        (b.chip.setWide f v) c) :
      SetWideEnds f v b (.ok (), c)

theorem setWide_ends {f : WideField} (v : UInt16) (hlow : Instruction.wired f.low = f.low)
    (hhigh : Instruction.wired f.high = f.high) (b : Board) :
    SetWideEnds f v b (setWide f v b) := by
  rcases write_ends hlow (f.lowByte v) b with ⟨c, hwrite, hc⟩ | ⟨e, c, hwrite, hc⟩
  · have hset : setWide f v b = write f.high (f.highByte v) c := Action.bind_ok _ hwrite _
    rcases write_ends hhigh (f.highByte v) c with ⟨d, hwrite, hd⟩ | ⟨e, d, hwrite, hd⟩
    · rw [hset, hwrite]
      rw [hc.chip] at hd
      exact .set (hc.trans hd)
    · rw [hset, hwrite]
      rw [hc.chip] at hd
      exact .highUnwritten (hc.trans hd)
  · have hset : setWide f v b = (.error (.bus e), c) := Action.bind_error _ hwrite _
    rw [hset]
    exact .lowUnwritten hc

theorem setFifoMode_effect (m : FifoMode) (b : Board) :
    SetFieldEnds .fifoMode m.code b (setFifoMode m b) :=
  setField_ends m.code (by decide) (by decide) b

/-! ### What setting a field leaves behind -/

namespace SetFieldEnds

variable {f : Field} {v : UInt8} {b c : Board} {o : Outcome Cause Unit} {e : Cause}

theorem chip (h : SetFieldEnds f v b (o, c)) : c.chip = b.chip ∨ c.chip = b.chip.setField f v := by
  cases h with
  | unread h => exact .inl h.chip
  | unwritten h => exact .inl h.chip
  | set h => exact .inr h.chip

/-- Other registers keep their bytes. -/
theorem registers (h : SetFieldEnds f v b (o, c)) {a : UInt16} (ha : a ≠ f.address) :
    c.registers.get a = b.registers.get a := by
  rcases h.chip with h | h
  · exact congrArg (fun k => k.registers.get a) h
  · exact (congrArg (fun k => k.registers.get a) h).trans
      (RegisterFile.get_set_of_ne _ _ ha.symm)

/-- The register keeps its other bits. -/
theorem outside (h : SetFieldEnds f v b (o, c)) (ha : f.address.toNat < 128) :
    c.registers.get f.address &&& ~~~f.mask = b.registers.get f.address &&& ~~~f.mask := by
  rcases h.chip with h | h
  · exact congrArg (fun k => k.registers.get f.address &&& ~~~f.mask) h
  · have hset : c.registers.get f.address = f.put v (b.registers.get f.address) :=
      (congrArg (fun k => k.registers.get f.address) h).trans
        (RegisterFile.get_set_self _ _ ha)
    rw [hset, f.put_outside]

theorem failures_le (h : SetFieldEnds f v b (o, c)) (a : UInt16) :
    b.failures a ≤ c.failures a := by
  cases h with
  | unread h => exact h.failures_le a
  | unwritten h => exact h.failures_le a
  | set h => exact h.failures_le a

/-- A failure is one access to the register of the field that failed. -/
theorem failed (h : SetFieldEnds f v b (.error e, c)) :
    c.failures f.address = b.failures f.address + 1 := by
  cases h with
  | unread h =>
    rw [h.failures]
    simp [BusAccess.failsAt, Nat.add_comm]
  | unwritten h =>
    rw [h.failures]
    simp [BusAccess.failsAt, Nat.add_comm]

/-- No access to another register fails. -/
theorem failures_of_ne (h : SetFieldEnds f v b (o, c)) {a : UInt16} (ha : a ≠ f.address) :
    c.failures a = b.failures a := by
  cases h with
  | unread h =>
    rw [h.failures]
    simp [BusAccess.failsAt, ha.symm]
  | unwritten h =>
    rw [h.failures]
    simp [BusAccess.failsAt, ha.symm]
  | set h =>
    rw [h.failures]
    simp [BusAccess.failsAt]

theorem unset (h : SetFieldEnds f v b (.error e, c)) : c.chip = b.chip := by
  cases h with
  | unread h => exact h.chip
  | unwritten h => exact h.chip

theorem done (h : SetFieldEnds f v b (.ok (), c)) : c.chip = b.chip.setField f v := by
  cases h with
  | set h => exact h.chip

/-- Only the register of the field is accessed, and only one byte can be written to it. -/
theorem traffic (h : SetFieldEnds f v b (o, c)) :
    ∃ new, c.traffic = new ++ b.traffic ∧ ∀ x ∈ new, (∃ r, x = .read f.address r) ∨
      ∃ done, x = .write f.address (f.put v (b.registers.get f.address)) done := by
  cases h with
  | unread h => exact ⟨_, h.traffic, by simp⟩
  | unwritten h => exact ⟨_, h.traffic, by simp⟩
  | set h => exact ⟨_, h.traffic, by simp⟩

end SetFieldEnds

namespace SetWideEnds

variable {f : WideField} {v : UInt16} {b c : Board} {o : Outcome Cause Unit}

theorem registers (h : SetWideEnds f v b (o, c)) {a : UInt16} (hlow : a ≠ f.low)
    (hhigh : a ≠ f.high) : c.registers.get a = b.registers.get a := by
  have hkept : (b.chip.write f.low (f.lowByte v)).registers.get a = b.registers.get a :=
    RegisterFile.get_set_of_ne _ _ hlow.symm
  cases h with
  | lowUnwritten h => exact congrArg (fun k => k.registers.get a) h.chip
  | highUnwritten h => exact (congrArg (fun k => k.registers.get a) h.chip).trans hkept
  | set h =>
    refine (congrArg (fun k => k.registers.get a) h.chip).trans (Eq.trans ?_ hkept)
    exact RegisterFile.get_set_of_ne _ _ hhigh.symm

theorem failures_le (h : SetWideEnds f v b (o, c)) (a : UInt16) :
    b.failures a ≤ c.failures a := by
  cases h with
  | lowUnwritten h => exact h.failures_le a
  | highUnwritten h => exact h.failures_le a
  | set h => exact h.failures_le a

theorem done (h : SetWideEnds f v b (.ok (), c)) : c.chip = b.chip.setWide f v := by
  cases h with
  | set h => exact h.chip

end SetWideEnds

end Converter

/-! ## Rules about one register -/

namespace Board.Rules

/-- A register keeps its byte. -/
def sparing (a : UInt16) : Rules where
  permits x := x ≠ .write a
  allows b c := c.registers.get a = b.registers.get a
  refl _ := rfl
  trans h h' := h'.trans h
  counted _ := rfl
  noted _ _ _ _ := rfl
  written _ _ v h := RegisterFile.get_set_of_ne _ v fun ha => h (congrArg Deed.write ha)
  called _ _ _ _ _ := rfl
  reserved _ _ _ := rfl

theorem failures_cons_le (a : UInt16) (e : Event) (record : List Event) :
    (record.filterMap Event.busAccess?).countP (BusAccess.failsAt a) ≤
      ((e :: record).filterMap Event.busAccess?).countP (BusAccess.failsAt a) :=
  ((List.sublist_cons_self e record).filterMap _).countP_le

/-- A failure at a register is never taken back. -/
def failing (a : UInt16) : Rules where
  permits _ := True
  allows b c := b.failures a ≤ c.failures a
  refl _ := Nat.le_refl _
  trans := Nat.le_trans
  counted _ := Nat.le_refl _
  noted _ e _ _ := failures_cons_le a e _
  written _ _ _ _ := Nat.le_refl _
  called _ _ _ _ _ := failures_cons_le a _ _
  reserved _ _ _ := Nat.le_refl _

theorem free_failing (a : UInt16) : (failing a).Free := fun _ _ => trivial

end Board.Rules

end AdcCapture
