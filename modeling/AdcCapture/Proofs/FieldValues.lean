/-
  Values in fields. What is put into a field is found there again, and the other bits stay as they
  are; a value that the field has enough bits for comes back as it is, in one register
  (`Field.get_put_of_lt`), in two (`WideField.toNat_of_lt`), and in two's complement
  (`WideField.toSigned_ofSigned`).
-/
import AdcCapture.Proofs.BoardCalls

namespace AdcCapture

/-! ## Fields of one register -/

/-- A field that was put into a byte is found there, cut to its width. -/
theorem Field.get_put (f : Field) (v byte : UInt8) :
    f.get (f.put v byte) = ((v <<< f.offset) &&& f.mask) >>> f.offset := by
  have hmask : ∀ s m : UInt8, ((byte &&& ~~~m) ||| (s &&& m)) &&& m = s &&& m := by
    intro s m
    refine UInt8.toBitVec_inj.1 (BitVec.eq_of_getLsbD_eq fun i hi => ?_)
    simp only [UInt8.toBitVec_and, UInt8.toBitVec_or, UInt8.toBitVec_not, BitVec.getLsbD_and,
      BitVec.getLsbD_or, BitVec.getLsbD_not]
    cases m.toBitVec.getLsbD i <;> simp [hi]
  unfold get put
  rw [hmask]

/-- The bits outside of a field stay as they are when it is put into a byte. -/
theorem Field.put_outside (f : Field) (v byte : UInt8) :
    f.put v byte &&& ~~~f.mask = byte &&& ~~~f.mask := by
  have hmask : ∀ s m : UInt8, ((byte &&& ~~~m) ||| (s &&& m)) &&& ~~~m = byte &&& ~~~m := by
    intro s m
    refine UInt8.toBitVec_inj.1 (BitVec.eq_of_getLsbD_eq fun i hi => ?_)
    simp only [UInt8.toBitVec_and, UInt8.toBitVec_or, UInt8.toBitVec_not, BitVec.getLsbD_and,
      BitVec.getLsbD_or, BitVec.getLsbD_not]
    cases m.toBitVec.getLsbD i <;> simp
  exact hmask _ _

/-- Of two values put into a field one after the other, the second one counts. -/
theorem Field.put_put (f : Field) (v w byte : UInt8) : f.put w (f.put v byte) = f.put w byte :=
  congrArg (· ||| ((w <<< f.offset) &&& f.mask)) (f.put_outside v byte)

/-- Bits that are none of the field's stay as they are when it is put into a byte. -/
theorem Field.put_apart {f : Field} {m : UInt8} (h : f.mask &&& m = 0) (v byte : UInt8) :
    f.put v byte &&& m = byte &&& m := by
  have hm : m = ~~~f.mask &&& m := by
    refine UInt8.toBitVec_inj.1 (BitVec.eq_of_getLsbD_eq fun i hi => ?_)
    have hbit := congrArg (fun x : UInt8 => x.toBitVec.getLsbD i) h
    simp only [UInt8.toBitVec_and, UInt8.toBitVec_not, BitVec.getLsbD_and,
      BitVec.getLsbD_not] at hbit ⊢
    cases hmi : m.toBitVec.getLsbD i <;> simp_all
  rw [hm, ← UInt8.and_assoc, f.put_outside, UInt8.and_assoc]

/-- A field that is put back as it was found changes nothing. -/
theorem Field.put_get {f : Field} (ho : f.offset.toNat < 8) (byte : UInt8) :
    f.put (f.get byte) byte = byte := by
  have hshift : (f.offset.toBitVec % 8).toNat = f.offset.toNat := by
    rw [BitVec.toNat_umod]
    exact Nat.mod_eq_of_lt ho
  refine UInt8.toBitVec_inj.1 (BitVec.eq_of_getLsbD_eq fun i hi => ?_)
  unfold put get mask
  simp only [UInt8.toBitVec_or, UInt8.toBitVec_and, UInt8.toBitVec_not, UInt8.toBitVec_shiftLeft,
    UInt8.toBitVec_shiftRight, BitVec.shiftLeft_eq', BitVec.ushiftRight_eq', hshift,
    BitVec.getLsbD_or, BitVec.getLsbD_and, BitVec.getLsbD_not, BitVec.getLsbD_shiftLeft,
    BitVec.getLsbD_ushiftRight]
  by_cases hlow : i < f.offset.toNat
  · simp [hlow, hi]
  · have hback : f.offset.toNat + (i - f.offset.toNat) = i := by omega
    simp only [hback, hlow, hi]
    generalize (UInt8.ofNat _).toBitVec.getLsbD (i - f.offset.toNat) = inside
    cases inside <;> simp

theorem shifted_and_mask {n w : Nat} (h : n < 1 <<< w) (o : Nat) :
    ((n <<< o) &&& ((1 <<< w - 1) <<< o)) >>> o = n := by
  rw [Nat.one_shiftLeft] at h ⊢
  rw [← Nat.shiftLeft_and_distrib, Nat.and_two_pow_sub_one_eq_mod, Nat.mod_eq_of_lt h,
    Nat.shiftLeft_shiftRight]

theorem toNat_shiftLeft_of_lt {n w : Nat} (h : n < 1 <<< w) {o : UInt8} (ho : o.toNat < 8)
    (hinside : o.toNat + w ≤ 8) : (UInt8.ofNat n <<< o).toNat = n <<< o.toNat := by
  have hshifted : n <<< o.toNat < 1 <<< 8 := by
    rw [Nat.one_shiftLeft] at h ⊢
    rw [Nat.shiftLeft_eq]
    calc n * 2 ^ o.toNat < 2 ^ w * 2 ^ o.toNat := Nat.mul_lt_mul_of_pos_right h (Nat.two_pow_pos _)
      _ = 2 ^ (o.toNat + w) := by rw [← Nat.pow_add, Nat.add_comm]
      _ ≤ 2 ^ 8 := Nat.pow_le_pow_right (by decide) hinside
  have hbyte : n < 1 <<< 8 := Nat.lt_of_le_of_lt (Nat.le_shiftLeft ..) hshifted
  rw [UInt8.toNat_shiftLeft, UInt8.toNat_ofNat_of_lt' hbyte, Nat.mod_eq_of_lt ho]
  exact Nat.mod_eq_of_lt hshifted

/-- The field lies inside a register that every bus reaches, and not in the status register. -/
def Field.Placed (f : Field) : Prop :=
  Instruction.wired f.address = f.address ∧ f.address ≠ Register.deviceStatus ∧
    f.address.toNat < 128 ∧ f.offset.toNat < 8 ∧ f.offset.toNat + f.width ≤ 8

instance (f : Field) : Decidable f.Placed := inferInstanceAs (Decidable (_ ∧ _))

/-- A number that the field has enough bits for is found there as it is. -/
theorem Field.get_put_of_lt {f : Field} (hf : f.Placed) {n : Nat} (h : n < 1 <<< f.width)
    (byte : UInt8) : (f.get (f.put (UInt8.ofNat n) byte)).toNat = n := by
  obtain ⟨-, -, -, ho, hinside⟩ := hf
  have hmask : 1 <<< f.width - 1 < 1 <<< f.width := by
    have hpos : 0 < 1 <<< f.width := by
      rw [Nat.one_shiftLeft]
      exact Nat.two_pow_pos _
    omega
  rw [Field.get_put]
  unfold Field.mask
  rw [UInt8.toNat_shiftRight, UInt8.toNat_and, toNat_shiftLeft_of_lt h ho hinside,
    toNat_shiftLeft_of_lt hmask ho hinside, Nat.mod_eq_of_lt ho, shifted_and_mask h]

/-- A field holds no more than its bits allow. -/
theorem Field.get_lt {f : Field} (hf : f.Placed) (byte : UInt8) :
    (f.get byte).toNat < 1 <<< f.width := by
  obtain ⟨-, -, -, ho, hinside⟩ := hf
  have hmask : 1 <<< f.width - 1 < 1 <<< f.width := by
    have hpos : 0 < 1 <<< f.width := by
      rw [Nat.one_shiftLeft]
      exact Nat.two_pow_pos _
    omega
  have hcut : (f.get byte).toNat = byte.toNat >>> f.offset.toNat &&& (1 <<< f.width - 1) := by
    unfold get mask
    rw [UInt8.toNat_shiftRight, UInt8.toNat_and, toNat_shiftLeft_of_lt hmask ho hinside,
      Nat.mod_eq_of_lt ho, Nat.shiftRight_and_distrib, Nat.shiftLeft_shiftRight]
  rw [hcut]
  exact Nat.lt_of_le_of_lt Nat.and_le_right hmask

/-! ## Fields of two registers -/

/-- The field lies inside two registers that every bus reaches. -/
def WideField.Placed (f : WideField) : Prop :=
  Instruction.wired f.low = f.low ∧ Instruction.wired f.high = f.high ∧ f.low.toNat < 128 ∧
    f.high.toNat < 128 ∧ f.low ≠ f.high ∧ 0 < f.width ∧ f.width ≤ 16

instance (f : WideField) : Decidable f.Placed := inferInstanceAs (Decidable (_ ∧ _))

/-- The bytes of a value, put together again, give the value cut to the width of the field. -/
theorem WideField.join_bytes (f : WideField) (v : UInt16) :
    f.join (f.highByte v) (f.lowByte v) = v &&& f.mask := by
  unfold join highByte lowByte
  rw [AdcCapture.join_bytes, UInt16.and_assoc, UInt16.and_self]

namespace WideField

variable {f : WideField}

theorem toNat_and_mask (hf : f.Placed) (v : UInt16) :
    (v &&& f.mask).toNat = v.toNat % 1 <<< f.width := by
  obtain ⟨-, -, -, -, -, hpos, hwidth⟩ := hf
  have hsize : 2 ^ f.width ≤ 2 ^ 16 := Nat.pow_le_pow_right (by decide) hwidth
  have hpow := Nat.two_pow_pos f.width
  unfold mask
  rw [Nat.one_shiftLeft, UInt16.toNat_and,
    UInt16.toNat_ofNat_of_lt' (by unfold UInt16.size; omega)]
  exact Nat.and_two_pow_sub_one_eq_mod _ _

/-- A number that the field has enough bits for is stored as it is. -/
theorem toNat_of_lt (hf : f.Placed) {n : Nat} (h : n < 1 <<< f.width) :
    (UInt16.ofNat n &&& f.mask).toNat = n := by
  have hsize : 2 ^ f.width ≤ 2 ^ 16 := Nat.pow_le_pow_right (by decide) hf.2.2.2.2.2.2
  have hword : n < UInt16.size := by
    rw [Nat.one_shiftLeft] at h
    unfold UInt16.size
    omega
  rw [toNat_and_mask hf, UInt16.toNat_ofNat_of_lt' hword, Nat.mod_eq_of_lt h]

theorem join_lt (hf : f.Placed) (high low : UInt8) : (f.join high low).toNat < 1 <<< f.width := by
  unfold join
  rw [toNat_and_mask hf]
  refine Nat.mod_lt _ ?_
  rw [Nat.one_shiftLeft]
  exact Nat.two_pow_pos _

/-- A field is twice as wide as its positive half. -/
theorem width_double (hf : f.Placed) : 1 <<< f.width = 2 * 1 <<< (f.width - 1) := by
  obtain ⟨n, hn⟩ : ∃ n, f.width = n + 1 := ⟨f.width - 1, by have := hf.2.2.2.2.2.1; omega⟩
  rw [hn, Nat.add_sub_cancel, Nat.one_shiftLeft, Nat.one_shiftLeft, Nat.pow_succ, Nat.mul_comm]

/-- Whatever the bits of a field are, they are a code of its range. -/
theorem toSigned_range (hf : f.Placed) {v : UInt16} (h : v.toNat < 1 <<< f.width) :
    f.minSigned ≤ f.toSigned v ∧ f.toSigned v ≤ f.maxSigned := by
  have hdouble := width_double hf
  unfold minSigned maxSigned toSigned
  rw [hdouble] at h ⊢
  generalize 1 <<< (f.width - 1) = p at h ⊢
  split <;> omega

/-- A code that the field has enough bits for is stored as it is. -/
theorem toSigned_ofSigned (hf : f.Placed) {c : Int} (hlo : f.minSigned ≤ c)
    (hhi : c ≤ f.maxSigned) : f.toSigned (ofSigned c &&& f.mask) = c := by
  obtain ⟨-, -, -, -, -, hpos, hwidth⟩ := id hf
  have hcode : (((c % 0x1_0000).toNat % 1 <<< f.width : Nat) : Int) =
      c % (1 <<< f.width : Nat) := by
    have hdvd : ((1 <<< f.width : Nat) : Int) ∣ 0x1_0000 := by
      rw [Nat.one_shiftLeft]
      exact Int.natCast_dvd_natCast.mpr (Nat.pow_dvd_pow 2 hwidth)
    rw [Int.natCast_emod, Int.toNat_of_nonneg (Int.emod_nonneg _ (by decide)),
      Int.emod_emod_of_dvd _ hdvd]
  have hword : (c % 0x1_0000).toNat < UInt16.size := by
    unfold UInt16.size
    omega
  have hdouble := width_double hf
  unfold toSigned
  rw [toNat_and_mask hf]
  unfold ofSigned
  rw [UInt16.toNat_ofNat_of_lt' hword]
  unfold minSigned at hlo
  unfold maxSigned at hhi
  generalize (c % 0x1_0000).toNat % 1 <<< f.width = n at hcode ⊢
  rw [hdouble] at hcode ⊢
  generalize 1 <<< (f.width - 1) = p at hlo hhi hcode ⊢
  have hn : (n : Int) = if 0 ≤ c then c else c + 2 * p := by
    rw [hcode]
    split
    · exact Int.emod_eq_of_lt ‹_› (by omega)
    · rw [← Int.add_emod_right]
      exact Int.emod_eq_of_lt (by omega) (by omega)
  split at hn <;> split <;> omega

end WideField

end AdcCapture
