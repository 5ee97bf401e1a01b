/-
  What a failed setter leaves behind. A field of one register is set by one write, so a failure
  leaves the registers as they were. A field of two registers is written low byte first, and a
  failure in between leaves it torn: the low byte is that of the new value, and the high byte is
  the old one. Nothing else is damaged either way (`Setter.call_error_torn`).
-/
import AdcCapture.Proofs.TypedCalls

namespace AdcCapture

/-! ## Torn places -/

theorem WideField.lowByte_toNat {f : WideField} (hf : f.Placed) (hwidth : 8 ≤ f.width)
    (v : UInt16) : (f.lowByte v).toNat = v.toNat % 256 := by
  have hdvd : 256 ∣ 1 <<< f.width := by
    rw [Nat.one_shiftLeft]
    exact Nat.pow_dvd_pow 2 hwidth
  unfold lowByte
  rw [UInt16.toNat_toUInt8, toNat_and_mask hf]
  exact Nat.mod_mod_of_dvd _ hdvd

namespace Place

/-- The field of two registers, if that is where the value is kept. -/
def wide? : Place → Option WideField
  | narrow _ => none
  | unsigned f => some f
  | signed f => some f

/-- The converter was left as it is, or torn: of two registers the first one holds the low byte of
the value. -/
def Torn (p : Place) (v : Int) (k l : Chip) : Prop :=
  l = k ∨ ∃ f, p.wide? = some f ∧ ∃ low : UInt8, (low.toNat : Int) = v % 256 ∧ l = k.write f.low low

variable {p q : Place} {v : Int} {k l : Chip}

/-- A failure to set a field of two registers leaves them as they were, or writes the low byte. -/
theorem setWide_torn {f : WideField} (hf : f.Placed) (hwidth : 8 ≤ f.width) {w : UInt16}
    (hv : (w.toNat : Int) % 256 = v % 256) {b c : Board} {e : Cause}
    (h : Converter.setWide f w b = (.error e, c)) :
    (∃ x, e = .bus x) ∧ (c.chip = b.chip ∨ ∃ low : UInt8, (low.toNat : Int) = v % 256 ∧
      c.chip = b.chip.write f.low low) := by
  have hends := Converter.setWide_ends w hf.1 hf.2.1 b
  rw [h] at hends
  cases hends with
  | @lowUnwritten x _ h => exact ⟨⟨x, rfl⟩, .inl h.chip⟩
  | @highUnwritten x _ h =>
    have hlow : ((f.lowByte w).toNat : Int) = v % 256 := by
      rw [WideField.lowByte_toNat hf hwidth, ← hv]
      exact Int.natCast_emod _ _
    exact ⟨⟨x, rfl⟩, .inr ⟨_, hlow, h.chip⟩⟩

/-- A failure to put a value somewhere is one of the bus, and tears the place at most. -/
theorem put_torn (h : p.Fits v) (hwidth : ∀ f, p.wide? = some f → 8 ≤ f.width) {b c : Board}
    {e : Cause} (hput : p.put v b = (.error e, c)) :
    (∃ x, e = .bus x) ∧ p.Torn v b.chip c.chip := by
  cases p with
  | narrow f =>
    change Converter.setField f (UInt8.ofNat v.toNat) b = _ at hput
    have hset := Converter.setField_ends (UInt8.ofNat v.toNat) h.1.1 h.1.2.1 b
    rw [hput] at hset
    exact ⟨Converter.of_setField_error hput, .inl hset.unset⟩
  | unsigned f =>
    obtain ⟨hplaced, hpos, hlt⟩ := h
    have hbound : 1 <<< f.width ≤ UInt16.size := by
      rw [Nat.one_shiftLeft]
      exact Nat.pow_le_pow_right (by decide) hplaced.2.2.2.2.2.2
    have hword : ((UInt16.ofNat v.toNat).toNat : Int) % 256 = v % 256 := by
      rw [UInt16.toNat_ofNat_of_lt' (Nat.lt_of_lt_of_le hlt hbound), Int.toNat_of_nonneg hpos]
    obtain ⟨hx, hchip⟩ := setWide_torn hplaced (hwidth f rfl) hword hput
    exact ⟨hx, hchip.imp id fun h => ⟨f, rfl, h⟩⟩
  | signed f =>
    obtain ⟨hplaced, hlow, hhigh⟩ := h
    have hword : ((WideField.ofSigned v).toNat : Int) % 256 = v % 256 := by
      have hlt : (v % 0x1_0000).toNat < UInt16.size := by
        unfold UInt16.size
        omega
      unfold WideField.ofSigned
      rw [UInt16.toNat_ofNat_of_lt' hlt]
      omega
    have hset := (congrFun (setSigned_eq hlow hhigh) b).symm.trans hput
    obtain ⟨hx, hchip⟩ := setWide_torn hplaced (hwidth f rfl) hword hset
    exact ⟨hx, hchip.imp id fun h => ⟨f, rfl, h⟩⟩

theorem low_mem_bits {f : WideField} (h : p.wide? = some f) : (f.low, 0xFF) ∈ p.bits := by
  cases p with
  | narrow g => cases h
  | unsigned g =>
    cases h
    exact List.mem_cons_self
  | signed g =>
    cases h
    exact List.mem_cons_self

/-- Bits that are not the place's are the same when it is torn. -/
theorem Torn.outside (h : p.Torn v k l) {x : UInt16 × UInt8} (hx : p.excludes x = true) :
    l.registers.get x.1 &&& x.2 = k.registers.get x.1 &&& x.2 := by
  rcases h with rfl | ⟨f, hf, low, -, rfl⟩
  · rfl
  · have hbit := List.all_eq_true.mp hx _ (low_mem_bits hf)
    simp only [ne_eq, Bool.or_eq_true, decide_eq_true_eq] at hbit
    exact outside_set hbit low k.registers

theorem Torn.held (h : p.Torn v k l) (hapart : p.apart q = true) : q.held l = q.held k :=
  held_congr fun x hx => h.outside (List.all_eq_true.mp hapart x hx)

end Place

namespace Converter

namespace Setter

variable {s : Setter}

/-- A field of two registers has more bits than one of them. -/
theorem width_of_wide {f : WideField} (h : s.place.wide? = some f) : 8 ≤ f.width := by
  cases s with
  | threshold t c => cases t <;> cases h <;> decide
  | watermark w =>
    cases h
    decide
  | offset c =>
    cases h
    decide
  | hysteresis c =>
    cases h
    decide
  | _ => cases h

/-- No setter touches the full flag by way of a torn field: the FIFO mode has one register. -/
theorem torn_status {k l : Chip} (h : s.place.Torn s.value k l) :
    l.visible Register.deviceStatus = k.visible Register.deviceStatus := by
  have hbyte := Place.byte_of_whole (h.outside s.excludes_status)
  rcases id h with rfl | ⟨f, hf, low, -, rfl⟩
  · rfl
  · have hne : s.attribute ≠ .fifoMode := by
      intro he
      have hplace := s.place?_attribute
      rw [he] at hplace
      cases Option.some.inj hplace ▸ hf
    have hmode := h.held (Attribute.apart_of_ne hne s.place?_attribute rfl)
    exact Chip.visible_congr rfl hbyte (UInt8.toNat_inj.mp (Int.ofNat.inj hmode))

/-- A setter fails for an argument that it does not take, before anything is done, or the bus has
failed. It then damages nothing but its own field: a field of one register is as it was, and of two
registers the first one may hold the low byte of the new value. All getters of other fields give
what they would have given before, and so do the product number and the status. -/
theorem call_error_torn {b c : Board} {e : Cause} (h : s.call b = (.error e, c)) :
    ((¬ s.Accepted ∧ e = .invalidArgument ∧ c = b) ∨ s.Accepted ∧ ∃ x, e = .bus x) ∧
    (s.place.wide? = none → c.registers = b.registers) ∧
    (∀ f, s.place.wide? = some f → c.registers = b.registers ∨
      ∃ low : UInt8, (low.toNat : Int) = s.value % 256 ∧
        c.registers = b.registers.set f.low low) ∧
    (∀ g : Getter, g.attribute ≠ s.attribute → b.Alike c g.call) ∧
    b.Alike c productId ∧ b.Alike c status ∧ b.Alike c fifoFull := by
  obtain ⟨hcause, htorn⟩ : ((¬ s.Accepted ∧ e = .invalidArgument ∧ c = b) ∨
      s.Accepted ∧ ∃ x, e = .bus x) ∧ s.place.Torn s.value b.chip c.chip := by
    by_cases ha : s.Accepted
    · rw [call_eq ha] at h
      obtain ⟨hx, htorn⟩ := Place.put_torn (fits ha) (fun f => width_of_wide) h
      exact ⟨.inr ⟨ha, hx⟩, htorn⟩
    · cases (call_refused ha b).symm.trans h
      exact ⟨.inl ⟨ha, rfl, rfl⟩, .inl rfl⟩
  have hstatus := torn_status htorn
  refine ⟨hcause, fun hnone => ?_, fun f hsome => ?_, fun g hne => g.looks.alike ?_,
    Looks.productId.alike ?_, Looks.status.alike hstatus, Looks.fifoFull.alike ?_⟩
  · rcases htorn with hsame | ⟨f, hf, -⟩
    · exact congrArg Chip.registers hsame
    · exact nomatch hnone.symm.trans hf
  · rcases htorn with hsame | ⟨f', hf, low, hlow, hwritten⟩
    · exact .inl (congrArg Chip.registers hsame)
    · cases hf.symm.trans hsome
      exact .inr ⟨low, hlow, congrArg Chip.registers hwritten⟩
  · unfold Getter.found
    rw [htorn.held (Attribute.apart_of_ne hne.symm s.place?_attribute g.place?_attribute)]
  · exact UInt16.toNat_inj.mp (Int.ofNat.inj (htorn.held s.apart_productId))
  · rw [hstatus]

/-- An offset of which the second byte could not be written. -/
theorem call_error_torn_offset :
    let b : Board := { faults := { planned := fun k _ => if k = 1 then some 7 else none } }
    ∃ c, (offset (-2)).call b = (.error (.bus (.code 7)), c) ∧
      (c.registers = b.registers ∨ ∃ low : UInt8, (low.toNat : Int) = 254 ∧
        c.registers = b.registers.set Register.offsetLow low) ∧
      c.registers.get Register.offsetLow = 254 ∧ c.registers.get Register.offsetHigh = 0 ∧
      b.Alike c Converter.hysteresis ∧ b.Alike c (Converter.threshold .low) := by
  intro b
  obtain ⟨hcause, hlow, hhigh⟩ : ((offset (-2)).call b).1 = .error (.bus (.code 7)) ∧
      ((offset (-2)).call b).2.registers.get Register.offsetLow = 254 ∧
      ((offset (-2)).call b).2.registers.get Register.offsetHigh = 0 := by decide +kernel
  obtain ⟨-, -, htorn, hgetters, -⟩ := call_error_torn (Prod.ext hcause rfl)
  exact ⟨_, Prod.ext hcause rfl, htorn .offset rfl, hlow, hhigh, hgetters .hysteresis (by decide),
    hgetters (.threshold .low) (by decide)⟩

end Setter

end Converter

end AdcCapture
