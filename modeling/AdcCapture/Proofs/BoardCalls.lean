/-
  What calls to the converter can do to the board. Rules say which changes of a board are allowed,
  closed under the small steps that calls are made of: counting an access, keeping a note, writing
  a register, calling the platform, asking for memory. `Board.Rules.permits` says which deeds the
  rules let through; a call obeys any rules that permit its deeds, on either bus. On the serial
  bus an access goes through an instruction, and `Instruction.encode_decodes` says that the
  converter takes out of it what was put in.
-/
import AdcCapture.Fifo.Interrupt
import AdcCapture.Proofs.Contract
import AdcCapture.Script.Reply

namespace AdcCapture

/-- The two bytes of a word, put together again, give the word. -/
theorem join_bytes (x : UInt16) :
    ((x >>> 8).toUInt8.toUInt16 <<< 8) ||| x.toUInt8.toUInt16 = x := by
  refine UInt16.toBitVec_inj.1 (BitVec.eq_of_getLsbD_eq fun k hk => ?_)
  simp only [UInt16.toBitVec_or, UInt16.toBitVec_shiftLeft, UInt8.toBitVec_toUInt16,
    UInt16.toBitVec_toUInt8, UInt16.toBitVec_shiftRight]
  by_cases h : k < 8
  · simp [h, hk]
  · simp [h, hk, show 8 + (k - 8) = k by omega, show k - 8 < 8 by omega, show k - 8 < 16 by omega]

/-! ## Instructions of the serial bus -/

namespace Instruction

/-- The address that a serial transfer has room for. -/
def wired (a : UInt16) : UInt16 := a &&& addressMask

theorem wired_wired (a : UInt16) : wired (wired a) = wired a := by
  unfold wired
  rw [UInt16.and_assoc, UInt16.and_self]

theorem high_and_readFlag (a : UInt16) : (wired a >>> 8).toUInt8 &&& readFlag = 0 := by
  refine UInt8.toBitVec_inj.1 (BitVec.eq_of_getLsbD_eq fun k hk => ?_)
  have hflag : ∀ k < 8, readFlag.toBitVec.getLsbD k = true →
      addressMask.toBitVec.getLsbD (8 + k) = false := by decide
  simp only [wired, UInt8.toBitVec_and, UInt16.toBitVec_toUInt8, UInt16.toBitVec_shiftRight,
    UInt16.toBitVec_and, BitVec.getLsbD_and, BitVec.getLsbD_setWidth]
  cases hf : readFlag.toBitVec.getLsbD k with
  | false => simp
  | true => simp [hflag k hk hf]

theorem or_readFlag (x : UInt8) : (x ||| readFlag) &&& readFlag ≠ 0 := by
  intro h
  have hbit := congrArg (fun y : UInt8 => y.toBitVec.getLsbD 7) h
  simp [readFlag] at hbit

theorem or_flag_and_mask (x : UInt16) :
    (x ||| (readFlag.toUInt16 <<< 8)) &&& addressMask = x &&& addressMask := by
  refine UInt16.toBitVec_inj.1 (BitVec.eq_of_getLsbD_eq fun k hk => ?_)
  have hflag : ∀ k < 16, ((readFlag.toUInt16 <<< 8).toBitVec.getLsbD k &&
      addressMask.toBitVec.getLsbD k) = false := by decide
  simp only [UInt16.toBitVec_and, UInt16.toBitVec_or, BitVec.getLsbD_and, BitVec.getLsbD_or]
  rw [Bool.and_or_distrib_right, hflag k hk, Bool.or_false]

theorem decode_read (a : UInt16) :
    decode ((wired a >>> 8).toUInt8 ||| readFlag) (wired a).toUInt8 = ⟨true, wired a⟩ := by
  unfold decode
  rw [decide_eq_true (or_readFlag _), UInt8.toUInt16_or, UInt16.shiftLeft_or, UInt16.or_assoc,
    UInt16.or_comm (readFlag.toUInt16 <<< 8), ← UInt16.or_assoc, or_flag_and_mask, join_bytes]
  exact congrArg _ (wired_wired a)

theorem decode_write (a : UInt16) :
    decode (wired a >>> 8).toUInt8 (wired a).toUInt8 = ⟨false, wired a⟩ := by
  unfold decode
  rw [decide_eq_false (not_not_intro (high_and_readFlag a)), join_bytes]
  exact congrArg _ (wired_wired a)

/-- What is encoded is decoded again, with the address cut to fifteen bits. -/
theorem encode_decodes (i : Instruction) :
    ∃ high low, i.encode = [high, low] ∧ decode high low = ⟨i.isRead, wired i.address⟩ := by
  rcases i with ⟨isRead, a⟩
  cases isRead with
  | true => exact ⟨_, _, rfl, decode_read a⟩
  | false => exact ⟨_, _, rfl, decode_write a⟩

end Instruction

/-! ## What an access gives -/

namespace Board

variable {α : Type}

theorem of_traced_ok {kind : UInt32 → BusFault} {event : Except BusFault α → Event}
    {a : Action Board UInt32 α} {v : α} {b c : Board} (h : traced kind event a b = (.ok v, c)) :
    ∃ d, a b = (.ok v, d) := by
  obtain ⟨r, d, hr, h⟩ := Action.of_bind_ok _ h
  obtain ⟨_, _, -, h⟩ := Action.of_bind_ok _ h
  rcases Action.of_attempt _ hr with ⟨w, rfl, hw⟩ | ⟨e, rfl, -⟩
  · cases h
    exact ⟨d, Action.of_mapError_ok _ hw⟩
  · cases h

/-- The bytes of a read instruction reach the converter as a read. -/
theorem answer_read (a : UInt16) : answer (Instruction.encode ⟨true, a⟩) =
    (do return [← peek (Instruction.wired a)] : Action Board UInt32 _) := by
  obtain ⟨high, low, henc, hdec⟩ := Instruction.encode_decodes ⟨true, a⟩
  rw [henc]
  unfold answer
  dsimp only
  rw [hdec, if_pos rfl]

/-- The bytes of a write instruction and of a value reach it as a write. -/
theorem answer_write (a : UInt16) (v : UInt8) : answer (Instruction.encode ⟨false, a⟩ ++ [v]) =
    (do poke (Instruction.wired a) v; return [] : Action Board UInt32 _) := by
  obtain ⟨high, low, henc, hdec⟩ := Instruction.encode_decodes ⟨false, a⟩
  rw [henc]
  unfold answer
  rw [List.cons_append, List.cons_append]
  dsimp only
  rw [hdec, if_neg Bool.false_ne_true]
  rfl

theorem serve_size {n : Nat} {b c : Board} {raw : Array UInt8} (h : serve n b = (.ok raw, c)) :
    raw.size = n := by
  obtain ⟨_, _, -, h⟩ := Action.of_bind_ok _ h
  cases h
  exact Array.size_ofFn

/-- A readout gives as many bytes as it was asked for. -/
theorem readData_size {n : Nat} {b c : Board} {raw : Array UInt8}
    (h : readData n b = (.ok raw, c)) : raw.size = n := by
  unfold readData at h
  rw [Action.state_bind] at h
  cases ht : b.transport with
  | direct =>
    rw [ht] at h
    obtain ⟨d, h⟩ := of_traced_ok h
    exact serve_size h
  | serial =>
    rw [ht] at h
    obtain ⟨d, h⟩ := of_traced_ok h
    exact serve_size h

end Board

/-! ## Rules for a board -/

/-- Whether an event is a readout of the FIFO. -/
def Event.readsFifo : Event → Bool
  | readData _ _ => true
  | stream _ _ => true
  | _ => false

def Event.callsPlatform : Event → Bool
  | platform _ _ _ => true
  | _ => false

namespace Board

/-- What a call can do to a board, other than count its accesses and keep notes of what it read
and wrote. -/
inductive Deed where
  | write (address : UInt16)
  | readFifo
  | platform (call : PlatformCall)
  | reserve

def Deed.callsPlatform : Deed → Bool
  | platform _ => true
  | _ => false

/-- The changes of a board that are allowed, and the deeds that stay within them. -/
structure Rules where
  permits : Deed → Prop
  allows : Board → Board → Prop
  refl : ∀ b, allows b b
  trans : ∀ {b c d}, allows b c → allows c d → allows b d
  counted : ∀ b, allows b { b with accesses := b.accesses + 1 }
  noted : ∀ b (e : Event), (e.readsFifo = true → permits .readFifo) → e.callsPlatform = false →
    allows b { b with record := e :: b.record }
  written : ∀ b a v, permits (.write a) →
    allows b { b with registers := b.registers.set a v }
  called : ∀ b c irq ok, permits (.platform c) →
    allows b { b with calls := b.calls + 1, record := .platform c irq ok :: b.record }
  reserved : ∀ b bytes, permits .reserve →
    allows b { b with allocator := (Allocator.reserve bytes b.allocator).2 }

namespace Rules

/-- The rules as a contract: calls on a board rely on nothing. -/
def contract (R : Rules) : Contract Board where
  inv _ := True
  allows := R.allows
  refl := R.refl
  trans := R.trans

/-- No rules at all. What obeys them breaks no assertion. -/
def lax : Rules where
  permits _ := True
  allows _ _ := True
  refl _ := trivial
  trans _ _ := trivial
  counted _ := trivial
  noted _ _ _ _ := trivial
  written _ _ _ _ := trivial
  called _ _ _ _ _ := trivial
  reserved _ _ _ := trivial

variable (R : Rules) {ε α : Type}

theorem note (e : Event) (hread : e.readsFifo = true → R.permits .readFifo)
    (hcall : e.callsPlatform = false) : (Board.note e : Action Board ε Unit).Obeys R.contract :=
  .update fun b _ => ⟨trivial, R.noted b e hread hcall⟩

theorem log (m : Message) : (Board.log m : Action Board ε Unit).Obeys R.contract :=
  R.note _ (fun h => nomatch h) rfl

/-! ### Accesses -/

theorem countAccess (a : Access) : (Board.countAccess a).Obeys R.contract := by
  intro b _
  unfold Board.countAccess
  dsimp only
  split <;> exact ⟨rfl, trivial, R.counted b⟩

theorem peek (a : UInt16) : (Board.peek a).Obeys R.contract :=
  .bind (R.countAccess _) fun _ => .bind .state fun b => .pure (b.visible a)

theorem poke (a : UInt16) (v : UInt8) (h : R.permits (.write a)) :
    (Board.poke a v).Obeys R.contract :=
  .bind (R.countAccess _) fun _ => .update fun b _ => ⟨trivial, R.written b a v h⟩

theorem serve (bytes : Nat) : (Board.serve bytes).Obeys R.contract :=
  .bind (R.countAccess _) fun _ => .bind .state fun b => .pure (b.served bytes)

theorem traced {kind : UInt32 → BusFault} {event : Except BusFault α → Event}
    {a : Action Board UInt32 α} (ha : a.Obeys R.contract)
    (hread : ∀ r, (event r).readsFifo = true → R.permits .readFifo)
    (hcall : ∀ r, (event r).callsPlatform = false) :
    (Board.traced kind event a).Obeys R.contract := by
  refine .bind (.attempt (.mapError kind ha)) fun r => ?_
  exact .bind (R.note _ (hread r) (hcall r)) fun _ => .ofExcept r

theorem answer_encode_read (a : UInt16) :
    (Board.answer (Instruction.encode ⟨true, a⟩)).Obeys R.contract := by
  rw [Board.answer_read]
  exact .bind (R.peek _) fun v => .pure [v]

theorem answer_encode_write (a : UInt16) (v : UInt8)
    (h : R.permits (.write (Instruction.wired a))) :
    (Board.answer (Instruction.encode ⟨false, a⟩ ++ [v])).Obeys R.contract := by
  rw [Board.answer_write]
  exact .bind (R.poke _ v h) fun _ => .pure []

theorem transfer {sent : List UInt8} (h : (Board.answer sent).Obeys R.contract) :
    (Board.transfer sent).Obeys R.contract :=
  R.traced h (fun _ h => nomatch h) fun _ => rfl

theorem readRegister (a : UInt16) : (Board.readRegister a).Obeys R.contract := by
  refine .bind .state fun b => ?_
  cases b.transport with
  | direct => exact R.traced (R.peek a) (fun _ h => nomatch h) fun _ => rfl
  | serial => exact .bind (R.transfer (R.answer_encode_read a)) fun l => .pure (l.headD 0)

/-- A write of a register needs to be permitted at its address, and at the address that a serial
transfer makes of it. -/
theorem writeRegister (a : UInt16) (v : UInt8) (h : R.permits (.write a))
    (hw : R.permits (.write (Instruction.wired a))) :
    (Board.writeRegister a v).Obeys R.contract := by
  refine .bind .state fun b => ?_
  cases b.transport with
  | direct => exact R.traced (R.poke a v h) (fun _ h => nomatch h) fun _ => rfl
  | serial => exact .bind (R.transfer (R.answer_encode_write a v hw)) fun _ => .pure ()

theorem readData (bytes : Nat) (h : R.permits .readFifo) :
    (Board.readData bytes).Obeys R.contract := by
  refine .bind .state fun b => ?_
  cases b.transport with
  | direct => exact R.traced (R.serve bytes) (fun _ _ => h) fun _ => rfl
  | serial => exact R.traced (R.serve bytes) (fun _ _ => h) fun _ => rfl

/-! ### Typed calls -/

theorem read (a : UInt16) : (Converter.read a).Obeys R.contract := .mapError _ (R.readRegister a)

theorem write (a : UInt16) (v : UInt8) (h : R.permits (.write a))
    (hw : R.permits (.write (Instruction.wired a))) : (Converter.write a v).Obeys R.contract :=
  .mapError _ (R.writeRegister a v h hw)

theorem getField (f : Field) : (Converter.getField f).Obeys R.contract :=
  .bind (R.read _) fun v => .pure (f.get v)

theorem setField (f : Field) (v : UInt8) (h : R.permits (.write f.address))
    (hw : R.permits (.write (Instruction.wired f.address))) :
    (Converter.setField f v).Obeys R.contract :=
  .bind (R.read _) fun _ => R.write _ _ h hw

theorem getWide (f : WideField) : (Converter.getWide f).Obeys R.contract :=
  .bind (R.read _) fun high => .bind (R.read _) fun low => .pure (f.join high low)

/-- Both registers of a wide field can be written, over either bus. -/
structure PermitsWide (f : WideField) : Prop where
  low : R.permits (.write f.low)
  wired_low : R.permits (.write (Instruction.wired f.low))
  high : R.permits (.write f.high)
  wired_high : R.permits (.write (Instruction.wired f.high))

variable {R} in
theorem setWide {f : WideField} (v : UInt16) (h : R.PermitsWide f) :
    (Converter.setWide f v).Obeys R.contract :=
  .bind (R.write _ _ h.low h.wired_low) fun _ => R.write _ _ h.high h.wired_high

theorem getSigned (f : WideField) : (Converter.getSigned f).Obeys R.contract :=
  .bind (R.getWide f) fun v => .pure (f.toSigned v)

variable {R} in
theorem setSigned {f : WideField} (code : Int) (h : R.PermitsWide f) :
    (Converter.setSigned f code).Obeys R.contract := by
  unfold Converter.setSigned
  split
  · exact .fail _
  · exact setWide _ h

theorem fifoFull : Converter.fifoFull.Obeys R.contract :=
  .bind (R.read _) fun _ => .pure _

theorem setFifoMode (m : FifoMode) (h : R.permits (.write Register.generalConfig)) :
    (Converter.setFifoMode m).Obeys R.contract := R.setField _ _ h h

variable {R} in
theorem setWatermark (w : UInt16) (h : R.PermitsWide .watermark) :
    (Converter.setWatermark w).Obeys R.contract := by
  unfold Converter.setWatermark
  split
  · exact .fail _
  · exact setWide _ h

theorem init (h : R.permits (.write Register.interfaceConfigA)) :
    Converter.init.Obeys R.contract := by
  refine .bind (R.write _ _ h h) fun _ => .bind (R.getWide _) fun id => ?_
  split
  · exact .pure ()
  · exact .bind (R.log _) fun _ => .fail _

theorem readDocumented (a : UInt16) : (Converter.readDocumented a).Obeys R.contract := by
  unfold Converter.readDocumented
  split
  · exact .fail _
  · exact R.read a

theorem writeDocumented (a : UInt16) (v : UInt8) (h : R.permits (.write a))
    (hw : R.permits (.write (Instruction.wired a))) :
    (Converter.writeDocumented a v).Obeys R.contract := by
  unfold Converter.writeDocumented
  split
  · exact .fail _
  · exact R.write a v h hw

/-! ### The allocator and the platform -/

/-- What the rules allow on the allocator of a board. -/
def memory : Contract Allocator where
  inv _ := True
  allows a a' := ∀ b : Board, b.allocator = a → R.allows b { b with allocator := a' }
  refl := by
    rintro a b rfl
    exact R.refl b
  trans := by
    rintro a a' a'' h h' b rfl
    exact R.trans (h b rfl) (h' { b with allocator := a' } rfl)

theorem reserve (bytes : Nat) (h : R.permits .reserve) :
    (Allocator.reserve bytes).Obeys R.memory := by
  intro a _
  refine ⟨?_, trivial, ?_⟩
  · unfold Allocator.reserve
    dsimp only
    split <;> split <;> rfl
  · rintro b rfl
    exact R.reserved b bytes h

theorem allocate {w : Nat} (hw : Sample.streamLength w < 1 <<< 64) (h : R.permits .reserve) :
    (Buffers.allocate w).Obeys R.memory := by
  have hraw : (Buffers.rawLength w : Outcome AllocError Nat).fault? = none := by
    unfold Buffers.rawLength Size.checked
    rw [if_pos hw]
    rfl
  refine .bind (.give hraw) fun _ => .bind (R.reserve _ h) fun _ => ?_
  exact .bind (R.reserve _ h) fun _ => .pure _

theorem newBuffers {w : Nat} (hw : Sample.streamLength w < 1 <<< 64) (h : R.permits .reserve) :
    (Fifo.newBuffers w).Obeys R.contract := by
  refine .recover (.within (R.allocate hw h) (fun _ _ => trivial) ?_) fun _ => ?_
  · exact fun b _ _ _ hallowed => ⟨trivial, hallowed b rfl⟩
  · exact .bind (R.log _) fun _ => .fail _

theorem platform (c : PlatformCall) (irq : Option UInt32) (h : R.permits (.platform c)) :
    (Board.platform c irq).Obeys R.contract := by
  intro b _
  refine ⟨?_, trivial, R.called b c irq _ h⟩
  unfold Board.platform
  dsimp only
  split <;> rfl

/-! ### Rules that permit every deed but calls of the platform -/

def Free : Prop := ∀ x : Deed, x.callsPlatform = false → R.permits x

variable {R}

theorem free_lax : lax.Free := fun _ _ => trivial

theorem Free.wide (h : R.Free) (f : WideField) : R.PermitsWide f :=
  ⟨h _ rfl, h _ rfl, h _ rfl, h _ rfl⟩

theorem Free.setField (h : R.Free) (f : Field) (v : UInt8) :
    (Converter.setField f v).Obeys R.contract := R.setField f v (h _ rfl) (h _ rfl)

end Rules

end Board

/-! ## How typed calls end -/

namespace Converter

theorem of_read_error {a : UInt16} {b c : Board} {e : Cause} (h : read a b = (.error e, c)) :
    ∃ f, e = .bus f := by
  obtain ⟨f, rfl, -⟩ := Action.of_mapError_error _ h
  exact ⟨f, rfl⟩

theorem of_setField_error {f : Field} {v : UInt8} {b c : Board} {e : Cause}
    (h : setField f v b = (.error e, c)) : ∃ x, e = .bus x := by
  rcases Action.of_bind_error _ h with h | ⟨_, _, -, h⟩
  · exact of_read_error h
  · obtain ⟨x, rfl, -⟩ := Action.of_mapError_error _ h
    exact ⟨x, rfl⟩

theorem of_readData_error {n : Nat} {b c : Board} {e : Cause} (h : readData n b = (.error e, c)) :
    ∃ f, e = .bus f := by
  obtain ⟨f, rfl, -⟩ := Action.of_mapError_error _ h
  exact ⟨f, rfl⟩

/-- Whatever happens on the bus, a mode is set, or the bus has failed. -/
theorem setFifoMode_ends (m : FifoMode) (b : Board) :
    (∃ c, setFifoMode m b = (.ok (), c)) ∨ ∃ f c, setFifoMode m b = (.error (.bus f), c) := by
  have hsure := (Board.Rules.lax.setFifoMode m trivial b trivial).sure
  rcases Action.ends_of_sure hsure with ⟨_, c, h⟩ | ⟨e, c, h⟩
  · exact .inl ⟨c, h⟩
  · obtain ⟨f, rfl⟩ := of_setField_error h
    exact .inr ⟨f, c, h⟩

/-- A readout gives bytes, or the bus has failed. -/
theorem readData_ends (n : Nat) (b : Board) :
    (∃ raw c, readData n b = (.ok raw, c)) ∨ ∃ f c, readData n b = (.error (.bus f), c) := by
  have hsure := ((Board.Rules.lax.readData n trivial).mapError Failure.bus b trivial).sure
  rcases Action.ends_of_sure hsure with ⟨raw, c, h⟩ | ⟨e, c, h⟩
  · exact .inl ⟨raw, c, h⟩
  · obtain ⟨f, rfl⟩ := of_readData_error h
    exact .inr ⟨f, c, h⟩

theorem fifoFull_ends (b : Board) :
    (∃ full c, fifoFull b = (.ok full, c)) ∨ ∃ e c, fifoFull b = (.error e, c) :=
  Action.ends_of_sure (Board.Rules.lax.fifoFull b trivial).sure

end Converter

/-! ## Converter calls by name -/

/-- The outcome that an answer tells of, without its value. -/
def Answer.outcome : Answer → Outcome Cause Unit
  | failure e => .error e
  | fault b => .fault b
  | _ => .ok ()

/-- A step on a board as a call. -/
def Answer.asCall (run : Board → Answer × Board) : Call Board Unit := fun b =>
  match run b with
  | (a, b) => (a.outcome, b)

namespace ConverterStep

variable {R : Board.Rules} {α β : Type}

theorem call_obeys (f : α → Value) {c : Call Board α} (hc : c.Obeys R.contract) :
    (Answer.asCall (call f c)).Obeys R.contract := by
  intro b _
  obtain ⟨hsure, -, hallowed⟩ := hc b trivial
  unfold Answer.asCall call
  rcases h : c b with ⟨o, b'⟩
  rw [h] at hsure hallowed
  cases o with
  | ok v => exact ⟨rfl, trivial, hallowed⟩
  | error e => exact ⟨rfl, trivial, hallowed⟩
  | fault x => cases hsure

theorem busCall_obeys (f : α → Value) {c : Action Board BusFault α} (hc : c.Obeys R.contract) :
    (Answer.asCall (busCall f c)).Obeys R.contract := by
  intro b _
  obtain ⟨hsure, -, hallowed⟩ := hc b trivial
  unfold Answer.asCall busCall
  rcases h : c b with ⟨o, b'⟩
  rw [h] at hsure hallowed
  cases o with
  | ok v => exact ⟨rfl, trivial, hallowed⟩
  | error e => exact ⟨rfl, trivial, hallowed⟩
  | fault x => cases hsure

theorem callWith_obeys (f : α → Value) {c : β → Call Board α} (x : Option β)
    (hc : ∀ x, (c x).Obeys R.contract) : (Answer.asCall (callWith f c x)).Obeys R.contract := by
  cases x with
  | none => exact fun b _ => ⟨rfl, trivial, R.refl b⟩
  | some x => exact call_obeys f (hc x)

theorem getField_obeys (f : Field) (g : UInt8 → α) :
    (do return g (← Converter.getField f) : Call Board α).Obeys R.contract :=
  .bind (R.getField f) fun _ => .pure _

/-- No typed call to the converter breaks an assertion, and none goes beyond rules that permit
every deed but calls of the platform. -/
theorem run_obeys (h : R.Free) (s : ConverterStep) : (Answer.asCall s.run).Obeys R.contract := by
  cases s with
  | init => exact call_obeys _ (R.init (h _ rfl))
  | productId => exact call_obeys _ (R.getWide _)
  | read a => exact call_obeys _ (R.read a)
  | write a v => exact call_obeys _ (R.write a v (h _ rfl) (h _ rfl))
  | readDocumented a => exact call_obeys _ (R.readDocumented a)
  | writeDocumented a v => exact call_obeys _ (R.writeDocumented a v (h _ rfl) (h _ rfl))
  | fifoMode => exact call_obeys _ (getField_obeys _ _)
  | setFifoMode c => exact call_obeys _ (h.setField _ _)
  | watermark => exact call_obeys _ (R.getWide _)
  | setWatermark w => exact call_obeys _ (Board.Rules.setWatermark w (h.wide _))
  | status => exact call_obeys _ (R.read _)
  | fifoFull => exact call_obeys _ R.fifoFull
  | readData n => exact call_obeys _ (.mapError _ (R.readData n (h _ rfl)))
  | pinDirection i => exact callWith_obeys _ _ fun _ => getField_obeys _ _
  | setPinDirection i d => exact callWith_obeys _ _ fun _ => h.setField _ _
  | pinFunctionCode i => exact callWith_obeys _ _ fun _ => R.getField _
  | pinFunction i => exact callWith_obeys _ _ fun _ => getField_obeys _ _
  | setPinFunction i c => exact callWith_obeys _ _ fun _ => h.setField _ _
  | offset => exact call_obeys _ (R.getSigned _)
  | setOffset c => exact call_obeys _ (Board.Rules.setSigned c (h.wide _))
  | hysteresis => exact call_obeys _ (R.getWide _)
  | setHysteresis c => exact call_obeys _ (Board.Rules.setWide c (h.wide _))
  | threshold t => exact call_obeys _ (R.getSigned _)
  | setThreshold t c => exact call_obeys _ (Board.Rules.setSigned c (h.wide _))
  | filter => exact call_obeys _ (getField_obeys _ _)
  | setFilter c => exact call_obeys _ (h.setField _ _)
  | sincRateCode => exact call_obeys _ (R.getField _)
  | setSincRate c => exact callWith_obeys _ _ fun _ => h.setField _ _
  | operatingModeBits => exact call_obeys _ (R.getField _)
  | operatingMode => exact call_obeys _ (getField_obeys _ _)
  | setOperatingMode c => exact callWith_obeys _ _ fun _ => h.setField _ _
  | busRead a => exact busCall_obeys _ (R.readRegister a)
  | busWrite a v => exact busCall_obeys _ (R.writeRegister a v (h _ rfl) (h _ rfl))

end ConverterStep

end AdcCapture
