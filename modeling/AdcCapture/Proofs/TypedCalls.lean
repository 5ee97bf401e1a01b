/-
  The typed calls to the converter, by name: the setters with the value that each is to set
  (`Converter.Setter`), and the getters with what each gives (`Converter.Getter`). A setter that
  accepts its value puts a number into the place of its field (`Setter.call_eq`), and refuses any
  other value before an access is made (`Setter.call_refused`). A getter reads registers and does
  nothing else, and what it gives is a function of the number at the place of its field
  (`Getter.shows`); that number is the one that the last setter of the field has put there
  (`Getter.found_write`).
-/
import AdcCapture.Proofs.AttributeIndependence

namespace AdcCapture

open Board (Answers)

/-! ## Calls that look at the converter -/

/-- On this board the call shows this value. Whichever accesses fail, it gives the value or reports
that the bus has failed, and the converter stays as it is; and where none fails it gives the
value. -/
structure Board.Shows {α : Type} (b : Board) (a : Call Board α) (v : α) : Prop where
  ends : ∀ faults, (∃ c, a { b with faults } = (.ok v, c) ∧ c.chip = b.chip) ∨
    ∃ e c, a { b with faults } = (.error (.bus e), c) ∧ c.chip = b.chip
  gives : ∀ faults, ({ b with faults } : Board).Reliable →
    ∃ c, a { b with faults } = (.ok v, c) ∧ c.chip = b.chip

/-- A call shows one value only. -/
theorem Board.Shows.unique {α : Type} {b : Board} {a : Call Board α} {v w : α}
    (hv : b.Shows a v) (hw : b.Shows a w) : v = w := by
  have hreliable : ({ b with faults := {} } : Board).Reliable := fun _ _ _ => rfl
  obtain ⟨c, hc, -⟩ := hv.gives {} hreliable
  obtain ⟨d, hd, -⟩ := hw.gives {} hreliable
  exact Outcome.ok.inj (congrArg Prod.fst (hc.symm.trans hd))

/-- The call shows the same on both boards. -/
def Board.Alike {α : Type} (b c : Board) (a : Call Board α) : Prop :=
  ∃ v, b.Shows a v ∧ c.Shows a v

/-- The call reads registers, and what it gives is a function of the converter. -/
structure Converter.Looks {α : Type} (a : Call Board α) (v : Chip → α) : Prop where
  ends : ∀ b : Board, (∃ c, a b = (.ok (v b.chip), c) ∧ c.chip = b.chip) ∨
    ∃ e c, a b = (.error (.bus e), c) ∧ c.chip = b.chip
  answers : ∀ b : Board, b.Reliable → Answers a b (v b.chip) b.chip

namespace Converter

namespace Looks

variable {α β : Type} {a : Call Board α} {v : Chip → α}

theorem shows (h : Looks a v) (b : Board) : b.Shows a (v b.chip) where
  ends faults := h.ends { b with faults }
  gives faults hb := by
    obtain ⟨c, hc, -, hchip⟩ := h.answers { b with faults } hb
    exact ⟨c, hc, hchip⟩

theorem alike (h : Looks a v) {b c : Board} (hsame : v c.chip = v b.chip) : b.Alike c a :=
  ⟨v b.chip, h.shows b, hsame ▸ h.shows c⟩

theorem bind (h : Looks a v) {f : α → Call Board β} {w : α → Chip → β}
    (hf : ∀ x, Looks (f x) (w x)) : Looks (a >>= f) (fun k => w (v k) k) where
  ends b := by
    rcases h.ends b with ⟨c, hrun, hc⟩ | ⟨e, c, hrun, hc⟩
    · rw [Action.bind_ok _ hrun, ← hc]
      exact (hf _).ends c
    · exact .inr ⟨e, c, Action.bind_error _ hrun _, hc⟩
  answers b hb := by
    refine (h.answers b hb).bind fun c hc hchip => ?_
    rw [← hchip]
    exact (hf _).answers c (hb.after hc)

theorem map (h : Looks a v) (f : α → β) : Looks (do return f (← a)) (fun k => f (v k)) :=
  h.bind (w := fun x _ => f x) fun x => ⟨fun b => .inl ⟨b, rfl, rfl⟩, fun b _ => .pure (f x) b⟩

theorem read {a : UInt16} (ha : Instruction.wired a = a) :
    Looks (Converter.read a) (Chip.visible a) where
  ends b := by
    rcases read_ends ha b with ⟨c, hrun, hc⟩ | ⟨e, c, hrun, hc⟩
    · exact .inl ⟨c, hrun, hc.chip⟩
    · exact .inr ⟨e, c, hrun, hc.chip⟩
  answers b hb := hb.read ha

/-- A register other than the one for the status is read as it is. -/
theorem readStored {a : UInt16} (ha : Instruction.wired a = a) (hs : a ≠ Register.deviceStatus) :
    Looks (Converter.read a) (fun k => k.registers.get a) := by
  have hvisible : Chip.visible a = fun k => k.registers.get a := by
    funext k
    exact Board.visible_of_ne _ hs
  exact hvisible ▸ read ha

theorem getField {f : Field} (hf : f.Placed) : Looks (Converter.getField f) (Chip.narrow f) :=
  (readStored hf.1 hf.2.1).map f.get

theorem getWide {f : WideField} (hf : f.Placed) (hlow : f.low ≠ Register.deviceStatus)
    (hhigh : f.high ≠ Register.deviceStatus) : Looks (Converter.getWide f) (Chip.wide f) :=
  (readStored hf.2.1 hhigh).bind fun high => (readStored hf.1 hlow).map (f.join high)

theorem productId : Looks Converter.productId (Chip.wide .productId) :=
  getWide (by decide) (by decide) (by decide)

theorem status : Looks Converter.status (Chip.visible Register.deviceStatus) := read (by decide)

theorem fifoFull : Looks Converter.fifoFull
    (fun k => k.visible Register.deviceStatus &&& Register.fifoFull ≠ 0) := status.map _

end Looks

/-! ## Setters -/

/-- A typed setter with the value that it is to set. -/
inductive Setter where
  | fifoMode (m : FifoMode)
  | watermark (samples : UInt16)
  | direction (pin : Pin) (d : PinDirection)
  | function (pin : Pin) (f : PinFunction)
  | offset (code : Int)
  | hysteresis (code : UInt16)
  | threshold (which : Threshold) (code : Int)
  | filter (f : Filter)
  | sincRate (r : SincRate)
  | operatingMode (m : OperatingMode)

/-- The attribute that the field is behind. -/
def Setter.attribute : Setter → Attribute
  | fifoMode _ => .fifoMode
  | watermark _ => .fifoWatermark
  | direction p _ => .outputEnable p
  | function p _ => .function p
  | offset _ => .offset
  | hysteresis _ => .hysteresis
  | threshold t _ => .threshold t
  | filter _ => .filterSelect
  | sincRate _ => .sincRate
  | operatingMode _ => .deviceMode

namespace Setter

def call : Setter → Call Board Unit
  | fifoMode m => setFifoMode m
  | watermark w => setWatermark w
  | direction p d => setPinDirection p d
  | function p f => setPinFunction p f
  | offset c => setOffset c
  | hysteresis c => setHysteresis c
  | threshold t c => setThreshold t c
  | filter f => setFilter f
  | sincRate r => setSincRate r
  | operatingMode m => setOperatingMode m

/-- Makes the calls one after the other, until one fails. -/
def callAll : List Setter → Call Board Unit
  | [] => pure ()
  | s :: rest => do
    s.call
    callAll rest

/-- The value is one that the setter takes. -/
def Accepted : Setter → Prop
  | watermark w => 1 ≤ w.toNat ∧ w.toNat ≤ 16384
  | offset c => -2048 ≤ c ∧ c ≤ 2047
  | threshold _ c => -2048 ≤ c ∧ c ≤ 2047
  | _ => True

/-- The place of the field. -/
def place : Setter → Place
  | fifoMode _ => .narrow .fifoMode
  | watermark _ => .unsigned .watermark
  | direction p _ => .narrow p.directionField
  | function p _ => .narrow p.functionField
  | offset _ => .signed .offset
  | hysteresis _ => .unsigned .hysteresis
  | threshold t _ => .signed t.field
  | filter _ => .narrow .filterSelect
  | sincRate _ => .narrow .sincDecimation
  | operatingMode _ => .narrow .operatingMode

/-- The number that is put into the field. Of a hysteresis only the bits of its field count. -/
def value : Setter → Int
  | fifoMode m => m.code.toNat
  | watermark w => w.toNat
  | direction _ d => d.code.toNat
  | function _ f => f.code.toNat
  | offset c => c
  | hysteresis c => (c.toNat % 1024 : Nat)
  | threshold _ c => c
  | filter f => f.code.toNat
  | sincRate r => r.code.toNat
  | operatingMode m => m.code.toNat

variable {s : Setter}

theorem place?_attribute (s : Setter) : s.attribute.place? = some s.place := by cases s <;> rfl

/-- What a setter takes is a value that the attribute can have. -/
theorem admits (h : s.Accepted) : s.attribute.domain.Admits s.value := by
  cases s with
  | fifoMode m => exact ⟨_, by cases m <;> rfl, rfl⟩
  | watermark w =>
    refine ⟨_, ?_, rfl⟩
    exact Bool.and_eq_true_iff.mpr ⟨decide_eq_true h.1, decide_eq_true h.2⟩
  | direction p d => exact ⟨_, by cases d <;> rfl, rfl⟩
  | function p f => exact ⟨_, by cases f <;> rfl, rfl⟩
  | offset c => exact h
  | hysteresis c =>
    have hlt : c.toNat % 1024 < 1024 := Nat.mod_lt _ (by decide)
    change 0 ≤ ((c.toNat % 1024 : Nat) : Int) ∧ ((c.toNat % 1024 : Nat) : Int) ≤ 1023
    omega
  | threshold t c => exact h
  | filter f => exact ⟨_, by cases f <;> rfl, rfl⟩
  | sincRate r =>
    refine ⟨_, decide_eq_true ?_, rfl⟩
    have hlt : r.code.toNat < 10 := r.code_lt
    omega
  | operatingMode m => exact ⟨_, by cases m <;> rfl, rfl⟩

theorem fits (h : s.Accepted) : s.place.Fits s.value :=
  Attribute.place_fits (place?_attribute s) (admits h)

/-- The product number does not share a register with any of the fields. -/
theorem apart_productId (s : Setter) : s.place.apart (.unsigned .productId) = true := by
  cases s with
  | direction p d => cases p <;> rfl
  | function p f => cases p <;> rfl
  | threshold t c => cases t <;> rfl
  | _ => rfl

/-- Nor does the status. -/
theorem excludes_status (s : Setter) : s.place.excludes (Register.deviceStatus, 0xFF) = true := by
  cases s with
  | direction p d => cases p <;> rfl
  | function p f => cases p <;> rfl
  | threshold t c => cases t <;> rfl
  | _ => rfl

/-- A field of two registers is set to the bits that it has room for. -/
theorem setWide_and_mask (f : WideField) (v : UInt16) : setWide f (v &&& f.mask) = setWide f v := by
  have hcut : v &&& f.mask &&& f.mask = v &&& f.mask := by rw [UInt16.and_assoc, UInt16.and_self]
  unfold setWide WideField.lowByte WideField.highByte
  rw [hcut]

theorem hysteresis_mask (c : UInt16) :
    UInt16.ofNat (c.toNat % 1024) = c &&& WideField.hysteresis.mask := by
  rw [← UInt16.toNat_inj, WideField.toNat_and_mask (by decide)]
  have hlt : c.toNat % 1024 < UInt16.size := Nat.lt_trans (Nat.mod_lt _ (by decide)) (by decide)
  exact UInt16.toNat_ofNat_of_lt' hlt

/-- A value that a setter takes is put into the place of its field. -/
theorem call_eq (h : s.Accepted) : s.call = s.place.put s.value := by
  have hbyte : ∀ (f : Field) (c : UInt8), setField f c = (Place.narrow f).put c.toNat := by
    intro f c
    unfold Place.put
    rw [Int.toNat_natCast, UInt8.ofNat_toNat]
  cases s with
  | fifoMode m => exact hbyte _ _
  | watermark w =>
    have hcode := setWatermark_eq h.1 h.2
    rw [UInt16.ofNat_toNat] at hcode
    change setWatermark w = setWide .watermark (UInt16.ofNat (Int.toNat w.toNat))
    rw [hcode, Int.toNat_natCast, UInt16.ofNat_toNat]
  | direction p d => exact hbyte _ _
  | function p f => exact hbyte _ _
  | offset c => rfl
  | hysteresis c =>
    change setWide .hysteresis c =
      setWide .hysteresis (UInt16.ofNat (Int.toNat (c.toNat % 1024 : Nat)))
    rw [Int.toNat_natCast, hysteresis_mask, setWide_and_mask]
  | threshold t c => rfl
  | filter f => exact hbyte _ _
  | sincRate r => exact hbyte _ _
  | operatingMode m => exact hbyte _ _

/-- Any other value is refused, and nothing is done. -/
theorem call_refused (h : ¬ s.Accepted) (b : Board) : s.call b = (.error .invalidArgument, b) := by
  have hsigned : ∀ (f : WideField) (c : Int), f.minSigned = -2048 → f.maxSigned = 2047 →
      ¬ (-2048 ≤ c ∧ c ≤ 2047) → setSigned f c b = (.error .invalidArgument, b) := by
    intro f c hmin hmax hc
    unfold setSigned
    rw [hmin, hmax, if_pos (by omega)]
    rfl
  cases s with
  | watermark w =>
    have hw : w = 0 ∨ fifoDepth < w.toNat := by
      have hdepth : fifoDepth = 16384 := rfl
      rw [← UInt16.toNat_inj]
      change ¬ (1 ≤ w.toNat ∧ w.toNat ≤ 16384) at h
      change w.toNat = 0 ∨ _
      omega
    change setWatermark w b = _
    unfold setWatermark
    rw [if_pos hw]
    rfl
  | offset c => exact hsigned _ c (by decide) (by decide) h
  | threshold t c =>
    cases t with
    | high => exact hsigned _ c (by decide) (by decide) h
    | low => exact hsigned _ c (by decide) (by decide) h
  | _ => exact absurd trivial h

end Setter

/-! ## Getters -/

/-- A typed getter of a field. -/
inductive Getter where
  | fifoMode
  | watermark
  | direction (pin : Pin)
  | functionCode (pin : Pin)
  | function (pin : Pin)
  | offset
  | hysteresis
  | threshold (which : Threshold)
  | filter
  | sincRateCode
  | operatingModeBits
  | operatingMode

/-- The attribute that the field is behind. -/
def Getter.attribute : Getter → Attribute
  | fifoMode => .fifoMode
  | watermark => .fifoWatermark
  | direction p => .outputEnable p
  | functionCode p => .function p
  | function p => .function p
  | offset => .offset
  | hysteresis => .hysteresis
  | threshold t => .threshold t
  | filter => .filterSelect
  | sincRateCode => .sincRate
  | operatingModeBits => .deviceMode
  | operatingMode => .deviceMode

namespace Getter

/-- What the getter gives. -/
def Result : Getter → Type
  | fifoMode => FifoMode
  | watermark => UInt16
  | direction _ => PinDirection
  | functionCode _ => UInt8
  | function _ => Option PinFunction
  | offset => Int
  | hysteresis => UInt16
  | threshold _ => Int
  | filter => Filter
  | sincRateCode => UInt8
  | operatingModeBits => UInt8
  | operatingMode => Option OperatingMode

def call : (g : Getter) → Call Board g.Result
  | fifoMode => Converter.fifoMode
  | watermark => Converter.watermark
  | direction p => Converter.pinDirection p
  | functionCode p => Converter.pinFunctionCode p
  | function p => Converter.pinFunction p
  | offset => Converter.offset
  | hysteresis => Converter.hysteresis
  | threshold t => Converter.threshold t
  | filter => Converter.filter
  | sincRateCode => Converter.sincRateCode
  | operatingModeBits => Converter.operatingModeBits
  | operatingMode => Converter.operatingMode

/-- The place of the field. -/
def place : Getter → Place
  | fifoMode => .narrow .fifoMode
  | watermark => .unsigned .watermark
  | direction p => .narrow p.directionField
  | functionCode p => .narrow p.functionField
  | function p => .narrow p.functionField
  | offset => .signed .offset
  | hysteresis => .unsigned .hysteresis
  | threshold t => .signed t.field
  | filter => .narrow .filterSelect
  | sincRateCode => .narrow .sincDecimation
  | operatingModeBits => .narrow .operatingMode
  | operatingMode => .narrow .operatingMode

/-- What the getter makes of the number in the field. -/
def decode : (g : Getter) → Int → g.Result
  | fifoMode, v => FifoMode.ofBits (UInt8.ofNat v.toNat)
  | watermark, v => UInt16.ofNat v.toNat
  | direction _, v => PinDirection.ofBit (UInt8.ofNat v.toNat)
  | functionCode _, v => UInt8.ofNat v.toNat
  | function _, v => PinFunction.ofCode? (UInt8.ofNat v.toNat)
  | offset, v => v
  | hysteresis, v => UInt16.ofNat v.toNat
  | threshold _, v => v
  | filter, v => Filter.ofBits (UInt8.ofNat v.toNat)
  | sincRateCode, v => UInt8.ofNat v.toNat
  | operatingModeBits, v => UInt8.ofNat v.toNat
  | operatingMode, v => OperatingMode.ofBits? (UInt8.ofNat v.toNat)

/-- What the getter finds in the registers. -/
def found (g : Getter) (k : Chip) : g.Result := g.decode (g.place.held k)

theorem place?_attribute (g : Getter) : g.attribute.place? = some g.place := by cases g <;> rfl

theorem narrow_held (f : Field) (k : Chip) :
    UInt8.ofNat (Place.held k (.narrow f)).toNat = k.narrow f := by
  unfold Place.held
  dsimp only
  rw [Int.toNat_natCast, UInt8.ofNat_toNat]
  rfl

theorem wide_held (f : WideField) (k : Chip) :
    UInt16.ofNat (Place.held k (.unsigned f)).toNat = k.wide f := by
  unfold Place.held
  dsimp only
  rw [Int.toNat_natCast, UInt16.ofNat_toNat]

theorem code_looks {f : Field} (hf : f.Placed) :
    Looks (getField f) fun k => UInt8.ofNat (Place.held k (.narrow f)).toNat := by
  simp only [narrow_held]
  exact .getField hf

theorem decoded_looks {f : Field} {α : Type} (d : UInt8 → α) (hf : f.Placed) :
    Looks (do return d (← getField f)) fun k => d (UInt8.ofNat (Place.held k (.narrow f)).toNat) :=
  (code_looks hf).map d

section Wide

variable {f : WideField} (hf : f.Placed) (hlow : f.low ≠ Register.deviceStatus)
  (hhigh : f.high ≠ Register.deviceStatus)
include hf hlow hhigh

theorem word_looks :
    Looks (getWide f) fun k => UInt16.ofNat (Place.held k (.unsigned f)).toNat := by
  simp only [wide_held]
  exact .getWide hf hlow hhigh

theorem signed_looks : Looks (getSigned f) fun k => Place.held k (.signed f) :=
  (Looks.getWide hf hlow hhigh).map f.toSigned

end Wide

/-- A getter looks at the converter, and gives what it finds in its field. -/
theorem looks (g : Getter) : Looks g.call g.found := by
  cases g with
  | fifoMode => exact decoded_looks _ (by decide)
  | watermark => exact word_looks (by decide) (by decide) (by decide)
  | direction p => cases p <;> exact decoded_looks _ (by decide)
  | functionCode p => cases p <;> exact code_looks (by decide)
  | function p => cases p <;> exact decoded_looks _ (by decide)
  | offset => exact signed_looks (by decide) (by decide) (by decide)
  | hysteresis => exact word_looks (by decide) (by decide) (by decide)
  | threshold t => cases t <;> exact signed_looks (by decide) (by decide) (by decide)
  | filter => exact decoded_looks _ (by decide)
  | sincRateCode => exact code_looks (by decide)
  | operatingModeBits => exact code_looks (by decide)
  | operatingMode => exact decoded_looks _ (by decide)

theorem shows (g : Getter) (b : Board) : b.Shows g.call (g.found b.chip) := g.looks.shows b

end Getter

/-! ## Setters and getters of one field -/

/-- What the getter gives once the setter was called, if both are for the same field. -/
def Setter.seenBy : (s : Setter) → (g : Getter) → Option g.Result
  | fifoMode m, .fifoMode => some m
  | watermark w, .watermark => some w
  | direction p d, .direction q => if p = q then some d else none
  | function p f, .functionCode q => if p = q then some f.code else none
  | function p f, .function q => if p = q then some (some f) else none
  | offset c, .offset => some c
  | hysteresis c, .hysteresis => some (c &&& 0x3FF)
  | threshold t c, .threshold u => if t = u then some c else none
  | filter f, .filter => some f
  | sincRate r, .sincRateCode => some r.code
  | operatingMode m, .operatingModeBits => some m.code
  | operatingMode m, .operatingMode => some (some m)
  | _, _ => none

namespace Getter

variable {g : Getter} {s : Setter}

theorem seenBy_of_ne (h : g.attribute ≠ s.attribute) : s.seenBy g = none := by
  cases g <;> cases s <;>
    first
    | rfl
    | exact absurd rfl h
    | exact if_neg fun e => h (congrArg _ e.symm)

theorem seenBy_of_eq (h : g.attribute = s.attribute) : s.seenBy g = some (g.decode s.value) := by
  cases g with
  | fifoMode =>
    cases s with
    | fifoMode m => cases m <;> rfl
    | _ => cases h
  | watermark =>
    cases s with
    | watermark w => exact congrArg some UInt16.ofNat_toNat.symm
    | _ => cases h
  | direction p =>
    cases s with
    | direction q d =>
      cases h
      exact (if_pos rfl).trans (by cases d <;> rfl)
    | _ => cases h
  | functionCode p =>
    cases s with
    | function q f =>
      cases h
      exact (if_pos rfl).trans (by cases f <;> rfl)
    | _ => cases h
  | function p =>
    cases s with
    | function q f =>
      cases h
      exact (if_pos rfl).trans (by cases f <;> rfl)
    | _ => cases h
  | offset =>
    cases s with
    | offset c => rfl
    | _ => cases h
  | hysteresis =>
    cases s with
    | hysteresis c => exact congrArg some (Setter.hysteresis_mask c).symm
    | _ => cases h
  | threshold t =>
    cases s with
    | threshold u c =>
      cases h
      exact if_pos rfl
    | _ => cases h
  | filter =>
    cases s with
    | filter f => cases f <;> rfl
    | _ => cases h
  | sincRateCode =>
    cases s with
    | sincRate r => exact congrArg some UInt8.ofNat_toNat.symm
    | _ => cases h
  | operatingModeBits =>
    cases s with
    | operatingMode m => cases m <;> rfl
    | _ => cases h
  | operatingMode =>
    cases s with
    | operatingMode m => cases m <;> rfl
    | _ => cases h

theorem place_of_eq (h : g.attribute = s.attribute) : g.place = s.place := by
  have hplace := g.place?_attribute
  rw [h, s.place?_attribute] at hplace
  exact (Option.some.inj hplace).symm

/-- Once a setter has put its value into the registers, a getter of the same field gives that
value, and every other getter what it would have given before. -/
theorem found_write (h : s.Accepted) (k : Chip) :
    g.found (s.place.write s.value k) = (s.seenBy g).getD (g.found k) := by
  by_cases heq : g.attribute = s.attribute
  · rw [seenBy_of_eq heq]
    unfold found
    rw [place_of_eq heq, Place.held_write (Setter.fits h)]
    rfl
  · have hapart := Attribute.apart_of_ne (Ne.symm heq) s.place?_attribute g.place?_attribute
    rw [seenBy_of_ne heq]
    unfold found
    rw [Place.held_write_of_apart (Setter.fits h) hapart]
    rfl

end Getter

end Converter

end AdcCapture
