/-
  Attributes are independent of each other. Nineteen attributes share sixteen registers, but no bit
  of a register belongs to the places of two of them (`Attribute.apart_of_ne`), and a value that is
  written to a place leaves all other bits alone (`Place.outside_write`). So storing into an
  attribute changes what that one shows, and of the others only the FIFO mode, which is turned off
  when the watermark is changed (`Driver.storeAttribute_independent`).
-/
import AdcCapture.Proofs.AttributeText

namespace AdcCapture

/-! ## The bits of a place -/

namespace Place

/-- The bits of the registers that belong to a place. A field of two registers takes both whole,
for its unused bits are cleared. -/
def bits : Place → List (UInt16 × UInt8)
  | narrow f => [(f.address, f.mask)]
  | unsigned f => [(f.low, 0xFF), (f.high, 0xFF)]
  | signed f => [(f.low, 0xFF), (f.high, 0xFF)]

/-- None of these bits belongs to the place. -/
def excludes (p : Place) (x : UInt16 × UInt8) : Bool :=
  p.bits.all fun y => y.1 ≠ x.1 || y.2 &&& x.2 = 0

/-- No bit belongs to both places. -/
def apart (p q : Place) : Bool := q.bits.all p.excludes

variable {p q : Place} {v : Int}

theorem byte_of_whole {x y : UInt8} (h : x &&& 0xFF = y &&& 0xFF) : x = y := by
  rwa [show (0xFF : UInt8) = -1 from rfl, UInt8.and_neg_one, UInt8.and_neg_one] at h

/-- What is held at a place depends on its bits only. -/
theorem held_congr {k l : Chip}
    (h : ∀ x ∈ p.bits, k.registers.get x.1 &&& x.2 = l.registers.get x.1 &&& x.2) :
    p.held k = p.held l := by
  have hwide : ∀ f : WideField, k.registers.get f.low &&& 0xFF = l.registers.get f.low &&& 0xFF →
      k.registers.get f.high &&& 0xFF = l.registers.get f.high &&& 0xFF → k.wide f = l.wide f := by
    intro f hlow hhigh
    unfold Chip.wide
    rw [byte_of_whole hlow, byte_of_whole hhigh]
  cases p with
  | narrow f =>
    have hbits := h _ List.mem_cons_self
    unfold held Field.get
    dsimp only at hbits ⊢
    rw [hbits]
  | unsigned f =>
    unfold held
    dsimp only
    rw [hwide f (h (f.low, 0xFF) List.mem_cons_self)
      (h (f.high, 0xFF) (List.mem_cons_of_mem _ List.mem_cons_self))]
  | signed f =>
    unfold held
    dsimp only
    rw [hwide f (h (f.low, 0xFF) List.mem_cons_self)
      (h (f.high, 0xFF) (List.mem_cons_of_mem _ List.mem_cons_self))]

/-- A byte that is written to a whole register changes no bits that are not in that register. -/
theorem outside_set {a b : UInt16} {m : UInt8} (h : a ≠ b ∨ 0xFF &&& m = 0) (w : UInt8)
    (r : RegisterFile) : (r.set a w).get b &&& m = r.get b &&& m := by
  rcases h with h | h
  · rw [RegisterFile.get_set_of_ne _ _ h]
  · have hm : m = 0 := by
      rwa [show (0xFF : UInt8) = -1 from rfl, UInt8.neg_one_and] at h
    rw [hm, UInt8.and_zero, UInt8.and_zero]

theorem outside_setWide {f : WideField} {x : UInt16 × UInt8}
    (h : (unsigned f).excludes x = true) (w : UInt16) (k : Chip) :
    (k.setWide f w).registers.get x.1 &&& x.2 = k.registers.get x.1 &&& x.2 := by
  obtain ⟨hlow, hhigh⟩ : (f.low ≠ x.1 ∨ 0xFF &&& x.2 = 0) ∧ (f.high ≠ x.1 ∨ 0xFF &&& x.2 = 0) := by
    simpa [excludes, bits] using h
  exact (outside_set hhigh _ _).trans (outside_set hlow _ _)

/-- A value that is written to a place changes none of the other bits. -/
theorem outside_write (h : p.Fits v) {x : UInt16 × UInt8} (hx : p.excludes x = true) (k : Chip) :
    (p.write v k).registers.get x.1 &&& x.2 = k.registers.get x.1 &&& x.2 := by
  cases p with
  | narrow f =>
    obtain ⟨a, m⟩ := x
    by_cases ha : f.address = a
    · have hm : f.mask &&& m = 0 := by simpa [excludes, bits, ha] using hx
      have hbyte : ((narrow f).write v k).registers.get f.address = f.put _ _ :=
        RegisterFile.get_set_self _ _ h.1.2.2.1
      subst ha
      dsimp only
      rw [hbyte, Field.put_apart hm]
    · exact congrArg (· &&& m) (RegisterFile.get_set_of_ne _ _ ha)
  | unsigned f => exact outside_setWide hx _ k
  | signed f => exact outside_setWide hx _ k

/-- A value that is written to a place is not seen at a place apart from it. -/
theorem held_write_of_apart (h : p.Fits v) (hapart : p.apart q = true) (k : Chip) :
    q.held (p.write v k) = q.held k :=
  held_congr fun x hx => outside_write h (List.all_eq_true.mp hapart x hx) k

end Place

namespace Attribute

theorem mem_all (a : Attribute) : a ∈ all := by
  cases a with
  | outputEnable p => cases p <;> decide
  | function p => cases p <;> decide
  | threshold t => cases t <;> decide
  | _ => decide

/-- The places of different attributes have no bit in common. -/
theorem apart_of_ne {a b : Attribute} (hne : a ≠ b) {p q : Place} (hp : a.place? = some p)
    (hq : b.place? = some q) : p.apart q = true := by
  have hall : (all.all fun a => all.all fun b =>
      a = b || (a.place?.all fun p => b.place?.all p.apart)) = true := by decide +kernel
  have hpair := List.all_eq_true.mp (List.all_eq_true.mp hall a (mem_all a)) b (mem_all b)
  rw [decide_eq_false hne, Bool.false_or, hp, hq] at hpair
  exact hpair

theorem held_of_place {a : Attribute} {p : Place} (hp : a.place? = some p) (k : Chip) :
    a.held k = some (p.held k) := by
  unfold held
  rw [hp]
  rfl

/-- The converter with a value of an attribute stored. The FIFO is turned off before the watermark
is changed. -/
def stored (v : Int) (k : Chip) (a : Attribute) : Chip :=
  a.place?.elim k (Place.write v (if a = fifoWatermark then k.setMode .disabled else k))

theorem stored_of_ne {a : Attribute} {p : Place} (hp : a.place? = some p) (ha : a ≠ fifoWatermark)
    (v : Int) (k : Chip) : a.stored v k = p.write v k := by
  unfold stored
  rw [hp, if_neg ha]
  rfl

section Stored

variable {a b : Attribute} {v : Int} (hv : a.domain.Admits v) (k : Chip)
include hv

theorem place_of_admits : ∃ p, a.place? = some p := by
  cases a with
  | raw => exact absurd hv id
  | scale => exact absurd hv id
  | _ => exact ⟨_, rfl⟩

/-- A value that was stored is held. -/
theorem held_stored : a.held (a.stored v k) = some v := by
  obtain ⟨p, hp⟩ := place_of_admits hv
  unfold stored
  rw [held_of_place hp, hp]
  exact congrArg some (Place.held_write (place_fits hp hv) _)

end Stored

end Attribute

/-! ## Storing where nothing fails -/

namespace Driver

variable {d : Driver} {i : Nat} {a : Attribute} {input : String} {v : Int}

/-- Where no access fails, a value that an attribute other than the watermark admits is written to
its place. -/
theorem storeAttribute_reliable (ha : Attribute.ofIndex? i = some a)
    (hv : a.domain.Denotes input v) (hne : a ≠ .fifoWatermark) (hb : d.fifo.board.Reliable) :
    ∃ c, storeAttribute i input d = (.ok (), d.withBoard c) ∧ d.fifo.board.Accessed c ∧
      c.chip = a.stored v d.fifo.board.chip := by
  obtain ⟨s, rfl, rfl, hrun⟩ := storeAttribute_taken (d := d) ha hv
  obtain ⟨p, hp, happly⟩ := Attribute.Setting.apply_eq hne
  have hnoted : d.fifo.board.Accessed
      (d.fifo.board.noted (.attributeStored s.attribute.name input)) := .noted _ _
  obtain ⟨c, hput, hc, hchip⟩ :=
    Place.put_answers (Attribute.place_fits hp hv.admits) (hb.after hnoted)
  refine ⟨c, ?_, hnoted.trans hc, ?_⟩
  · rw [hrun, happly]
    exact onBoard_eq hput
  · rw [hchip, Attribute.stored_of_ne hp hne]
    rfl

theorem setWatermark_healthy {n : Nat} (hd : d.Sound) (hidle : d.capture = .idle)
    (hb : d.fifo.board.Healthy) (h1 : 1 ≤ n) (h2 : n ≤ fifoDepth) :
    ∃ e, setWatermark n d = (.ok (), e) ∧ e.fifo.board.Reliable ∧
      e.fifo.board.chip = Attribute.fifoWatermark.stored n d.fifo.board.chip := by
  obtain ⟨c, hok, hc, hchip⟩ := Fifo.setWatermark_healthy hd.live hb h1 h2
  exact ⟨_, (setWatermark_idle hidle n).trans (onFifo_eq hok), hc.reliable, hchip⟩

end Driver

end AdcCapture
