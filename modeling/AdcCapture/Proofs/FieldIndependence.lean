/-
  The fields of the converter are independent of each other. Seventeen fields share sixteen
  registers; a typed setter puts its value into the bits of its own field, so what a getter gives
  after any number of setters is what the last setter of its field has set, or what it gave before
  if there was none; and no bit is changed that belongs to none of the fields that were set
  (`Setter.callAll_independent`).
-/
import AdcCapture.Proofs.TypedCalls

namespace AdcCapture

open Board (Answers)

/-! ## Codes in two's complement -/

/-- The code of twelve bits in two's complement that two bytes hold. Whatever the four upper bits
of the high byte are, they do not count. -/
def signExtended (high low : UInt8) : Int :=
  let n : Nat := high.toNat % 16 * 256 + low.toNat
  if n < 2048 then n else n - 4096

theorem toNat_word (high low : UInt8) :
    ((high.toUInt16 <<< 8) ||| low.toUInt16).toNat = high.toNat * 256 + low.toNat := by
  have hhigh := high.toNat_lt
  have hlow : low.toNat < 2 ^ 8 := low.toNat_lt
  have hword : high.toNat <<< 8 < UInt16.size := by
    rw [Nat.shiftLeft_eq]
    unfold UInt16.size
    omega
  rw [UInt16.toNat_or, UInt16.toNat_shiftLeft, UInt8.toNat_toUInt16, UInt8.toNat_toUInt16]
  change high.toNat <<< 8 % UInt16.size ||| low.toNat = _
  rw [Nat.mod_eq_of_lt hword, ← Nat.shiftLeft_add_eq_or_of_lt hlow, Nat.shiftLeft_eq]

theorem WideField.toSigned_join {f : WideField} (hf : f.Placed) (hwidth : f.width = 12)
    (high low : UInt8) : f.toSigned (f.join high low) = signExtended high low := by
  have hlow := low.toNat_lt
  have hcut : (f.join high low).toNat = high.toNat % 16 * 256 + low.toNat := by
    unfold join
    rw [toNat_and_mask hf, toNat_word, hwidth]
    change (high.toNat * 256 + low.toNat) % 4096 = _
    omega
  unfold toSigned signExtended
  rw [hcut, hwidth]
  rfl

namespace Converter

namespace Setter

/-! ## One setter -/

variable {s : Setter} {q : Place}

/-- A setter that ends well has put its value into the registers. -/
theorem call_done {b c : Board} (h : s.call b = (.ok (), c)) :
    s.Accepted ∧ c.chip = s.place.write s.value b.chip := by
  by_cases ha : s.Accepted
  · rw [call_eq ha] at h
    exact ⟨ha, Place.put_done (fits ha) h⟩
  · exact nomatch (call_refused ha b).symm.trans h

theorem call_answers (h : s.Accepted) {b : Board} (hb : b.Reliable) :
    Answers s.call b () (s.place.write s.value b.chip) := by
  rw [call_eq h]
  exact Place.put_answers (fits h) hb

/-! ## Any number of setters -/

/-- The converter once the values were put into the registers, one after the other. -/
def writeAll : List Setter → Chip → Chip
  | [], k => k
  | s :: rest, k => writeAll rest (s.place.write s.value k)

variable {ss : List Setter}

theorem callAll_done {b c : Board} (h : callAll ss b = (.ok (), c)) :
    (∀ s ∈ ss, s.Accepted) ∧ c.chip = writeAll ss b.chip := by
  induction ss generalizing b with
  | nil =>
    cases h
    exact ⟨List.forall_mem_nil _, rfl⟩
  | cons s rest ih =>
    obtain ⟨_, d, hs, hrest⟩ := Action.of_bind_ok _ h
    obtain ⟨ha, hd⟩ := call_done hs
    obtain ⟨hall, hc⟩ := ih hrest
    exact ⟨List.forall_mem_cons.mpr ⟨ha, hall⟩, by rw [hc, hd]; rfl⟩

theorem callAll_answers (h : ∀ s ∈ ss, s.Accepted) {b : Board} (hb : b.Reliable) :
    Answers (callAll ss) b () (writeAll ss b.chip) := by
  induction ss generalizing b with
  | nil => exact .pure () b
  | cons s rest ih =>
    obtain ⟨hs, hrest⟩ := List.forall_mem_cons.mp h
    refine (call_answers hs hb).bind fun c hc hchip => ?_
    have hlast := ih hrest (hb.after hc)
    rw [hchip] at hlast
    exact hlast

section Written

variable (h : ∀ s ∈ ss, s.Accepted)
include h

/-- Bits that belong to none of the fields stay as they are. -/
theorem outside_writeAll {x : UInt16 × UInt8} (hx : ∀ s ∈ ss, s.place.excludes x = true)
    (k : Chip) : (writeAll ss k).registers.get x.1 &&& x.2 = k.registers.get x.1 &&& x.2 := by
  induction ss generalizing k with
  | nil => rfl
  | cons s rest ih =>
    obtain ⟨hs, hrest⟩ := List.forall_mem_cons.mp h
    obtain ⟨hxs, hxrest⟩ := List.forall_mem_cons.mp hx
    exact (ih hrest hxrest _).trans (Place.outside_write (fits hs) hxs k)

/-- A place apart from all of the fields holds what it held before. -/
theorem held_writeAll (hq : ∀ s ∈ ss, s.place.apart q = true) (k : Chip) :
    q.held (writeAll ss k) = q.held k :=
  Place.held_congr fun x hx =>
    outside_writeAll h (fun s hs => List.all_eq_true.mp (hq s hs) x hx) k

/-- A getter gives what the last setter of its field has set, if there was one. -/
theorem found_writeAll (g : Getter) (k : Chip) :
    g.found (writeAll ss k) = (ss.reverse.findSome? fun s => s.seenBy g).getD (g.found k) := by
  induction ss generalizing k with
  | nil => rfl
  | cons s rest ih =>
    obtain ⟨hs, hrest⟩ := List.forall_mem_cons.mp h
    have hlast : (s :: rest).reverse.findSome? (fun s => s.seenBy g) =
        (rest.reverse.findSome? fun s => s.seenBy g).or (s.seenBy g) := by
      rw [List.reverse_cons, List.findSome?_append, List.findSome?_singleton]
    rw [hlast]
    change g.found (writeAll rest (s.place.write s.value k)) = _
    rw [ih hrest, Getter.found_write hs]
    cases rest.reverse.findSome? fun s => s.seenBy g <;> rfl

end Written

theorem fillOnArm_writeAll (ss : List Setter) (k : Chip) :
    (writeAll ss k).fillOnArm = k.fillOnArm := by
  induction ss generalizing k with
  | nil => rfl
  | cons s rest ih => exact (ih _).trans (by cases s <;> rfl)

end Setter

/-- The code that a getter of twelve bits in two's complement gives. -/
theorem Getter.shows_signed {f : WideField} (hf : f.Placed) (hwidth : f.width = 12) {b : Board}
    {a : Call Board Int} (h : b.Shows a (Place.held b.chip (.signed f))) :
    b.Shows a (signExtended (b.registers.get f.high) (b.registers.get f.low)) := by
  rw [← WideField.toSigned_join hf hwidth]
  exact h

/-- The fields of the converter are independent of each other. Where no access fails, any sequence
of typed setters with values that they take ends well. Once it has ended well, whatever was in the
registers before, each getter gives what the last setter of its field has set, or what it gave
before if there was none; the product number is the same, and so is the status unless its full
flag follows the FIFO mode; a register that holds none of the fields has kept its byte, and no bit
has changed that belongs to none of them. Codes of twelve bits are read in two's complement,
whatever the upper bits of the high byte are. -/
theorem Setter.callAll_independent (ss : List Setter) (b : Board) :
    (b.Reliable → (∀ s ∈ ss, s.Accepted) → ∃ c, callAll ss b = (.ok (), c) ∧ c.Reliable) ∧
    (∀ c, callAll ss b = (.ok (), c) →
      (∀ g : Getter, ∃ v, b.Shows g.call v ∧
        c.Shows g.call ((ss.reverse.findSome? fun s => s.seenBy g).getD v)) ∧
      b.Alike c productId ∧ (b.fillOnArm = false → b.Alike c status ∧ b.Alike c fifoFull) ∧
      (∀ a, (∀ s ∈ ss, ∀ x ∈ s.place.bits, x.1 ≠ a) → c.registers.get a = b.registers.get a) ∧
      ∀ a m, (∀ s ∈ ss, ∀ x ∈ s.place.bits, x.1 = a → x.2 &&& m = 0) →
        c.registers.get a &&& m = b.registers.get a &&& m) ∧
    b.Shows Converter.offset
      (signExtended (b.registers.get Register.offsetHigh) (b.registers.get Register.offsetLow)) ∧
    ∀ t : Threshold, b.Shows (Converter.threshold t)
      (signExtended (b.registers.get t.field.high) (b.registers.get t.field.low)) := by
  refine ⟨fun hb hall => ?_, fun c hrun => ?_, ?_, fun t => ?_⟩
  · obtain ⟨c, hrun, hc, -⟩ := callAll_answers hall hb
    exact ⟨c, hrun, hb.after hc⟩
  · obtain ⟨hall, hchip⟩ := callAll_done hrun
    have hbits : ∀ a m, (∀ s ∈ ss, ∀ x ∈ s.place.bits, x.1 = a → x.2 &&& m = 0) →
        c.registers.get a &&& m = b.registers.get a &&& m := by
      intro a m hm
      have hx : ∀ s ∈ ss, s.place.excludes (a, m) = true := by
        refine fun s hs => List.all_eq_true.mpr fun x hx => ?_
        by_cases hxa : x.1 = a
        · exact Bool.or_eq_true_iff.mpr (.inr (decide_eq_true (hm s hs x hx hxa)))
        · exact Bool.or_eq_true_iff.mpr (.inl (decide_eq_true hxa))
      have hkept := outside_writeAll hall hx b.chip
      rw [← hchip] at hkept
      exact hkept
    have hstatus : b.fillOnArm = false →
        c.chip.visible Register.deviceStatus = b.chip.visible Register.deviceStatus := by
      intro hfill
      have hkept := outside_writeAll hall (fun s _ => excludes_status s) b.chip
      have hsame := fillOnArm_writeAll ss b.chip
      rw [← hchip] at hkept hsame
      rw [Chip.visible_plain (hsame.trans hfill), Chip.visible_plain hfill]
      exact Place.byte_of_whole hkept
    refine ⟨fun g => ⟨_, g.shows b, ?_⟩, ?_, fun hfill => ?_, fun a ha => ?_, hbits⟩
    · have hshows := g.shows c
      rw [hchip, found_writeAll hall] at hshows
      exact hshows
    · refine Looks.productId.alike ?_
      have hheld := held_writeAll hall (fun s _ => apart_productId s) b.chip
      rw [← hchip] at hheld
      exact UInt16.toNat_inj.mp (Int.ofNat.inj hheld)
    · refine ⟨Looks.status.alike (hstatus hfill), Looks.fifoFull.alike ?_⟩
      rw [hstatus hfill]
    · exact Place.byte_of_whole (hbits a 0xFF fun s hs x hx hxa => absurd hxa (ha s hs x hx))
  · exact Getter.shows_signed (f := .offset) (by decide) rfl (Getter.offset.shows b)
  · cases t with
    | high =>
      exact Getter.shows_signed (f := .highThreshold) (by decide) rfl
        ((Getter.threshold .high).shows b)
    | low =>
      exact Getter.shows_signed (f := .lowThreshold) (by decide) rfl
        ((Getter.threshold .low).shows b)

/-- The functions of two pins share a register, the bits of a hysteresis above its field are
dropped, and of a threshold that was not set only the sign bit counts above its low byte. -/
theorem Setter.callAll_independent_neighbours :
    let b : Board := { registers := RegisterFile.empty.set Register.lowThresholdHigh 0xF8 }
    let ss : List Setter := [.function .gp1 .externalEventTrigger, .function .gp0 .fifoFull,
      .offset (-2), .hysteresis 0xFFFF]
    ∃ c, callAll ss b = (.ok (), c) ∧
      c.Shows (pinFunction .gp0) (some .fifoFull) ∧
      c.Shows (pinFunction .gp1) (some .externalEventTrigger) ∧
      c.Shows Converter.offset (-2) ∧ c.Shows Converter.hysteresis 0x3FF ∧
      b.Shows (Converter.threshold .low) (-2048) ∧ c.Shows (Converter.threshold .low) (-2048) ∧
      c.registers.get Register.lowThresholdHigh = 0xF8 := by
  intro b ss
  have hb : b.Reliable := (Board.healthy_default rfl rfl).reliable
  have hall : ∀ s ∈ ss, s.Accepted :=
    List.forall_mem_cons.mpr ⟨trivial, List.forall_mem_cons.mpr ⟨trivial,
      List.forall_mem_cons.mpr ⟨by exact ⟨by decide, by decide⟩,
        List.forall_mem_cons.mpr ⟨trivial, List.forall_mem_nil _⟩⟩⟩⟩
  obtain ⟨hends, hindependent, -, hsigned⟩ := callAll_independent ss b
  obtain ⟨c, hrun, -⟩ := hends hb hall
  obtain ⟨hgetters, -, -, hkept, -⟩ := hindependent c hrun
  have hlow : b.Shows (Converter.threshold .low) (-2048) := by
    have hcode : signExtended (b.registers.get Register.lowThresholdHigh)
        (b.registers.get Register.lowThresholdLow) = -2048 := by decide +kernel
    rw [← hcode]
    exact hsigned .low
  have haway : (ss.all fun s => s.place.bits.all fun x => x.1 ≠ Register.lowThresholdHigh) = true :=
    rfl
  have hbyte := hkept Register.lowThresholdHigh fun s hs x hx =>
    of_decide_eq_true (List.all_eq_true.mp (List.all_eq_true.mp haway s hs) x hx)
  refine ⟨c, hrun, ?_, ?_, ?_, ?_, hlow, ?_, hbyte⟩
  · obtain ⟨_, -, h⟩ := hgetters (.function .gp0)
    exact h
  · obtain ⟨_, -, h⟩ := hgetters (.function .gp1)
    exact h
  · obtain ⟨_, -, h⟩ := hgetters .offset
    exact h
  · obtain ⟨_, -, h⟩ := hgetters .hysteresis
    exact h
  · obtain ⟨v, hv, h⟩ := hgetters (.threshold .low)
    rw [hlow.unique hv]
    exact h

end Converter

end AdcCapture
