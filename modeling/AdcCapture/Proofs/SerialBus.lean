/-
  The serial bus against the direct one. Whatever a call finds and does on a board whose converter
  is addressed directly has a counterpart on the same board with the converter on the serial bus:
  an access is the transfer that carries it, a failure of the bus is its kind, and everything else
  is itself (`Event.onWire`, `Board.onWire`). An access mirrors itself as long as its address has
  fifteen bits, for then the converter reads off the instruction what was put into it. So this
  mirror is faithful, and every call to a converter, to a descriptor and to a driver mirrors itself.
-/
import AdcCapture.Proofs.BusTraffic
import AdcCapture.Proofs.DriverMirrors

namespace AdcCapture

/-! ## Instructions -/

namespace Instruction

/-- An address of fifteen bits is what a serial transfer makes of it. -/
theorem wired_of_le {a : UInt16} (h : a ≤ 0x7FFF) : wired a = a := by
  have hle : a.toNat ≤ 0x7FFF := UInt16.le_iff_toNat_le.mp h
  refine UInt16.toNat_inj.mp ?_
  unfold wired addressMask
  rw [UInt16.toNat_and]
  calc a.toNat &&& 0x7FFF = a.toNat % 0x8000 := Nat.and_two_pow_sub_one_eq_mod a.toNat 15
    _ = a.toNat := Nat.mod_eq_of_lt (by omega)

/-- Instructions for addresses of fifteen bits are told apart by their bytes. -/
theorem encode_injective {i j : Instruction} (hi : i.address ≤ 0x7FFF) (hj : j.address ≤ 0x7FFF)
    (h : i.encode = j.encode) : i = j := by
  obtain ⟨high, low, hencode, hdecode⟩ := i.encode_decodes
  obtain ⟨high', low', hencode', hdecode'⟩ := j.encode_decodes
  rw [wired_of_le hi] at hdecode
  rw [wired_of_le hj] at hdecode'
  rw [hencode, hencode'] at h
  cases h
  exact hdecode.symm.trans hdecode'

end Instruction

/-! ## Counterparts -/

/-- A failure of the bus as the serial bus reports it. -/
def BusFault.onWire : BusFault → BusFault
  | code n => serial (.ofCode n)
  | serial kind => serial kind

/-- A cause, with a failure of the bus as the serial bus reports it. -/
def Failure.onWire : Cause → Cause
  | bus f => bus f.onWire
  | e => e

def Message.onWire : Message → Message
  | unbindFailed e => unbindFailed e.onWire
  | unsetFailed e => unsetFailed e.onWire
  | interruptFailed e => interruptFailed e.onWire
  | abandonFailed e => abandonFailed e.onWire
  | m => m

/-- An access as the transfer that carries it over the serial bus. -/
def Event.onWire : Event → Event
  | read a r => transfer (Instruction.encode ⟨true, a⟩) (bothMap BusFault.onWire (fun v => [v]) r)
  | write a v r =>
    transfer (Instruction.encode ⟨false, a⟩ ++ [v]) (bothMap BusFault.onWire (fun _ => []) r)
  | readData n r => stream n (bothMap BusFault.onWire id r)
  | log m => log m.onWire
  | e => e

/-- The board with its converter on the serial bus. -/
def Board.onWire (b : Board) : Board :=
  { b with transport := .serial, record := b.record.map Event.onWire }

/-- The converter is addressed directly, and every access so far is one that a transfer can
carry. -/
structure Board.Direct (b : Board) : Prop where
  transport : b.transport = .direct
  carried : ∀ e ∈ b.record, e.onWire.busAccess? = e.busAccess?

/-- Accesses that transfers can carry are the accesses that the transfers tell of. -/
theorem Event.traffic_onWire {es : List Event} (h : ∀ e ∈ es, e.onWire.busAccess? = e.busAccess?) :
    (es.map onWire).filterMap busAccess? = es.filterMap busAccess? := by
  induction es with
  | nil => rfl
  | cons e es ih =>
    have hrest := ih fun f hf => h f (List.mem_cons_of_mem e hf)
    rw [List.map_cons, List.filterMap_cons, List.filterMap_cons, h e List.mem_cons_self, hrest]

namespace Board

/-- The board on the serial bus as a mirror. -/
def mirror : Mirror Board := ⟨onWire, Direct⟩

/-! ## The board -/

theorem allocation_mirrored : allocation.Mirrored mirror (.still Allocator) where
  get _ := rfl
  set _ _ _ _ := rfl
  inv _ _ := trivial
  kept _ _ _ hb := ⟨hb.transport, hb.carried⟩

theorem note_mirrors {ε ε' : Type} {e : ε → ε'} (x : Event)
    (h : x.onWire.busAccess? = x.busAccess?) :
    (note x : Action Board ε Unit).Mirrors mirror e id (note x.onWire) :=
  .update fun _ hb => ⟨rfl, hb.transport, List.forall_mem_cons.mpr ⟨h, hb.carried⟩⟩

theorem platform_mirrors (c : PlatformCall) (irq : Option UInt32) :
    (platform c irq).Mirrors mirror id id (platform c irq) := by
  intro b hb
  have hcarried : ∀ e ∈ Event.platform c irq (!b.refuses b.calls c) :: b.record,
      e.onWire.busAccess? = e.busAccess? := List.forall_mem_cons.mpr ⟨rfl, hb.carried⟩
  unfold platform
  dsimp only [mirror, onWire]
  cases b.refuses b.calls c && canFail c with
  | true => exact ⟨rfl, hb.transport, hcarried⟩
  | false => exact ⟨rfl, hb.transport, hcarried⟩

/-! ## Accesses below the bus -/

theorem countAccess_mirrors (a : Access) :
    (countAccess a).Mirrors mirror id id (countAccess a) := by
  intro b hb
  unfold countAccess
  dsimp only [mirror, onWire]
  cases b.faults.code? b.accesses a with
  | some k => exact ⟨rfl, hb.transport, hb.carried⟩
  | none => exact ⟨rfl, hb.transport, hb.carried⟩

theorem peek_mirrors (a : UInt16) : (peek a).Mirrors mirror id id (peek a) :=
  .bind (countAccess_mirrors _) fun _ => .stateBind fun b _ => .pure (b.visible a)

theorem poke_mirrors (a : UInt16) (v : UInt8) : (poke a v).Mirrors mirror id id (poke a v) :=
  .bind (countAccess_mirrors _) fun _ => .update fun _ hb => ⟨rfl, hb.transport, hb.carried⟩

theorem serve_mirrors (n : Nat) : (serve n).Mirrors mirror id id (serve n) :=
  .bind (countAccess_mirrors _) fun _ => .stateBind fun b _ => .pure (b.served n)

/-! ## Accesses over the bus -/

section Registers

variable {a : UInt16} (ha : a ≤ 0x7FFF)
include ha

theorem readRegister_mirrors :
    (readRegister a).Mirrors mirror BusFault.onWire id (readRegister a) := by
  have hwired := Instruction.wired_of_le ha
  have hanswer : (peek a).Mirrors mirror id (fun v => [v])
      (answer (Instruction.encode ⟨true, a⟩)) := by
    rw [answer_read, hwired]
    exact .thenPure (fun v => [v]) (peek_mirrors a)
  have htransfer : (traced .code (.read a) (peek a)).Mirrors mirror BusFault.onWire (fun v => [v])
      (transfer (Instruction.encode ⟨true, a⟩)) := by
    refine traced_mirrors hanswer (fun _ => rfl) fun r => note_mirrors (.read a r) ?_
    cases r with
    | ok v => exact busAccess?_read hwired _
    | error f => exact busAccess?_read hwired _
  -- Which bus an access goes over is looked up in the board, so the two sides part here.
  intro b hb
  unfold readRegister
  rw [Action.state_bind, Action.state_bind, hb.transport]
  exact Action.Mirrors.thenPure (fun vs => vs.headD 0) htransfer b hb

theorem writeRegister_mirrors (v : UInt8) :
    (writeRegister a v).Mirrors mirror BusFault.onWire id (writeRegister a v) := by
  have hwired := Instruction.wired_of_le ha
  have hanswer : (poke a v).Mirrors mirror id (fun _ => [])
      (answer (Instruction.encode ⟨false, a⟩ ++ [v])) := by
    rw [answer_write, hwired]
    exact .thenPure (fun _ => []) (poke_mirrors a v)
  have htransfer : (traced .code (.write a v) (poke a v)).Mirrors mirror BusFault.onWire
      (fun _ => []) (transfer (Instruction.encode ⟨false, a⟩ ++ [v])) := by
    refine traced_mirrors hanswer (fun _ => rfl) fun r => note_mirrors (.write a v r) ?_
    cases r with
    | ok _ => exact busAccess?_write hwired v _
    | error f => exact busAccess?_write hwired v _
  intro b hb
  unfold writeRegister
  rw [Action.state_bind, Action.state_bind, hb.transport]
  exact Action.Mirrors.thenPure (fun _ => ()) htransfer b hb

end Registers

/-- The bytes of the FIFO come over the other line, and there is no address in that. -/
theorem readData_mirrors (n : Nat) :
    (readData n).Mirrors mirror BusFault.onWire id (readData n) := by
  have htraced : (traced .code (fun r => .readData n (r.map fun _ => ())) (serve n)).Mirrors mirror
      BusFault.onWire id (traced (fun k => .serial (.ofCode k))
        (fun r => .stream n (r.map fun _ => ())) (serve n)) := by
    refine traced_mirrors (serve_mirrors n) (fun _ => rfl) fun r => ?_
    cases r with
    | ok _ => exact note_mirrors (.readData n (.ok ())) rfl
    | error f => exact note_mirrors (.readData n (.error f)) rfl
  intro b hb
  unfold readData
  rw [Action.state_bind, Action.state_bind, hb.transport]
  exact htraced b hb

/-- The serial bus is a faithful mirror of the direct one, at addresses of fifteen bits. -/
theorem wire_faithful : mirror.Faithful BusFault.onWire (· ≤ 0x7FFF) where
  reach_of_le ha := ha
  irq _ := rfl
  allocation := allocation_mirrored
  log m := note_mirrors (.log m) rfl
  offer n taken := note_mirrors (.sinkWrite n taken) rfl
  platform := platform_mirrors
  readRegister := readRegister_mirrors
  writeRegister v ha := writeRegister_mirrors ha v
  readData := readData_mirrors

end Board

/-! ## Descriptors and drivers -/

/-- The descriptor with its converter on the serial bus. -/
def Fifo.onWire (f : Fifo) : Fifo := { f with board := f.board.onWire }

def Fifo.mirror : Mirror Fifo := ⟨Fifo.onWire, fun f => f.board.Direct⟩

namespace Driver

/-- How a readout went, as it is seen over the serial bus. -/
abbrev resultOnWire : Except Cause Unit → Except Cause Unit := bothMap Failure.onWire id

/-- The driver with its converter on the serial bus. -/
def onWire (d : Driver) : Driver :=
  { d with fifo := d.fifo.onWire, completion := d.completion.mapSlot resultOnWire }

def mirror : Mirror Driver := ⟨onWire, fun d => d.fifo.board.Direct⟩

/-- The board that a start hands back is the one of the driver that it started. -/
theorem init_board {c : Config} {b b' : Board} {d : Driver} (h : init c b = (.ok d, b')) :
    d.fifo.board = b' := by
  unfold init at h
  split at h
  · cases h
    rfl
  · cases h
  · cases h

end Driver

end AdcCapture
