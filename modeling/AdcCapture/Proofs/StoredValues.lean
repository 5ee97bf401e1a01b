/-
  Storing a text into an attribute programs the value that it denotes. The converter keeps the
  value of an attribute in a field of one register or of two (`Place`), and a value that fits
  there is read out again as it was put in. Every value that an attribute admits fits, so nothing
  that was accepted is cut on its way; and a text that is not accepted leaves nothing behind but a
  message in the log (`Driver.InputEnds`, `Driver.storeAttribute_accepts`).
-/
import AdcCapture.Proofs.AttributeInput
import AdcCapture.Proofs.Refusals
import AdcCapture.Proofs.WatermarkAgreement

namespace AdcCapture

/-! ## Where values are kept -/

/-- Where the converter keeps a value: in a field of one register, or in one of two as an unsigned
number or in two's complement. -/
inductive Place where
  | narrow (f : Field)
  | unsigned (f : WideField)
  | signed (f : WideField)

namespace Place

/-- The value that the registers hold. -/
def held (k : Chip) : Place → Int
  | narrow f => (f.get (k.registers.get f.address)).toNat
  | unsigned f => (k.wide f).toNat
  | signed f => f.toSigned (k.wide f)

def put (v : Int) : Place → Call Board Unit
  | narrow f => Converter.setField f (UInt8.ofNat v.toNat)
  | unsigned f => Converter.setWide f (UInt16.ofNat v.toNat)
  | signed f => Converter.setSigned f v

/-- The converter with the value written there. -/
def write (v : Int) (k : Chip) : Place → Chip
  | narrow f => k.setField f (UInt8.ofNat v.toNat)
  | unsigned f => k.setWide f (UInt16.ofNat v.toNat)
  | signed f => k.setWide f (WideField.ofSigned v)

/-- The value is one that the bits of the place can hold. -/
def Fits (v : Int) : Place → Prop
  | narrow f => f.Placed ∧ 0 ≤ v ∧ v.toNat < 1 <<< f.width
  | unsigned f => f.Placed ∧ 0 ≤ v ∧ v.toNat < 1 <<< f.width
  | signed f => f.Placed ∧ f.minSigned ≤ v ∧ v ≤ f.maxSigned

variable {p : Place} {v : Int}

theorem setSigned_eq {f : WideField} (hlow : f.minSigned ≤ v) (hhigh : v ≤ f.maxSigned) :
    Converter.setSigned f v = Converter.setWide f (WideField.ofSigned v) := by
  unfold Converter.setSigned
  exact if_neg (by omega)

theorem put_never (h : p.Fits v) : (p.put v).NeverInvalid := by
  cases p with
  | narrow f => exact Converter.setField_never _ _
  | unsigned f => exact Converter.setWide_never _ _
  | signed f => exact Converter.setSigned_never h.2.1 h.2.2

/-- A value that fits is held once it was written. -/
theorem held_write (h : p.Fits v) (k : Chip) : p.held (p.write v k) = v := by
  cases p with
  | narrow f =>
    obtain ⟨hplaced, hpos, hlt⟩ := h
    have hbyte : ((narrow f).write v k).registers.get f.address =
        f.put (UInt8.ofNat v.toNat) (k.registers.get f.address) :=
      RegisterFile.get_set_self _ _ hplaced.2.2.1
    unfold held
    dsimp only
    rw [hbyte, Field.get_put_of_lt hplaced hlt]
    exact Int.toNat_of_nonneg hpos
  | unsigned f =>
    obtain ⟨hplaced, hpos, hlt⟩ := h
    unfold held write
    dsimp only
    rw [Chip.wide_setWide hplaced, WideField.toNat_of_lt hplaced hlt]
    exact Int.toNat_of_nonneg hpos
  | signed f =>
    obtain ⟨hplaced, hlow, hhigh⟩ := h
    unfold held write
    dsimp only
    rw [Chip.wide_setWide hplaced]
    exact WideField.toSigned_ofSigned hplaced hlow hhigh

/-- Putting a value somewhere that ends well has written it. -/
theorem put_done (h : p.Fits v) {b c : Board} (hput : p.put v b = (.ok (), c)) :
    c.chip = p.write v b.chip := by
  cases p with
  | narrow f =>
    have hset := Converter.setField_ends (UInt8.ofNat v.toNat) h.1.1 h.1.2.1 b
    exact (hput ▸ hset : Converter.SetFieldEnds f _ b (.ok (), c)).done
  | unsigned f =>
    have hset := Converter.setWide_ends (UInt16.ofNat v.toNat) h.1.1 h.1.2.1 b
    exact (hput ▸ hset : Converter.SetWideEnds f _ b (.ok (), c)).done
  | signed f =>
    have hset := Converter.setWide_ends (WideField.ofSigned v) h.1.1 h.1.2.1 b
    have hwide := (congrFun (setSigned_eq h.2.1 h.2.2) b).symm.trans hput
    exact (hwide ▸ hset : Converter.SetWideEnds f _ b (.ok (), c)).done

theorem put_answers (h : p.Fits v) {b : Board} (hb : b.Reliable) :
    Board.Answers (p.put v) b () (p.write v b.chip) := by
  cases p with
  | narrow f => exact hb.setField (UInt8.ofNat v.toNat) h.1.1 h.1.2.1
  | unsigned f => exact hb.setWide (UInt16.ofNat v.toNat) h.1.1 h.1.2.1
  | signed f =>
    change Board.Answers (Converter.setSigned f v) b () _
    rw [setSigned_eq h.2.1 h.2.2]
    exact hb.setWide (WideField.ofSigned v) h.1.1 h.1.2.1

end Place

namespace Attribute

/-- The place of an attribute that can be stored into. -/
def place? : Attribute → Option Place
  | raw => none
  | scale => none
  | offset => some (.signed .offset)
  | outputEnable p => some (.narrow p.directionField)
  | function p => some (.narrow p.functionField)
  | fifoMode => some (.narrow .fifoMode)
  | fifoWatermark => some (.unsigned .watermark)
  | hysteresis => some (.unsigned .hysteresis)
  | threshold t => some (.signed t.field)
  | filterSelect => some (.narrow .filterSelect)
  | sincRate => some (.narrow .sincDecimation)
  | deviceMode => some (.narrow .operatingMode)

/-- The value of the attribute that the converter holds. -/
def held (k : Chip) (a : Attribute) : Option Int := a.place?.map (Place.held k)

theorem fits_narrow {f : Field} {admitted : Nat → Bool} {v : Int} (hf : f.Placed)
    (hwidth : ∀ n, admitted n = true → n < 1 <<< f.width)
    (h : (Domain.codes admitted).Admits v) : (Place.narrow f).Fits v := by
  obtain ⟨n, hn, rfl⟩ := h
  exact ⟨hf, Int.natCast_nonneg n, hwidth n hn⟩

/-- The codes up to a limit need no more bits than the limit. -/
theorem codes_lt {limit bound : Nat} (h : limit < bound) :
    ∀ n, decide (n ≤ limit) = true → n < bound :=
  fun _ hn => Nat.lt_of_le_of_lt (of_decide_eq_true hn) h

/-- Every value that an attribute admits fits into its place. -/
theorem place_fits {a : Attribute} {p : Place} {v : Int} (hp : a.place? = some p)
    (h : a.domain.Admits v) : p.Fits v := by
  cases a with
  | raw => cases hp
  | scale => cases hp
  | offset =>
    cases hp
    exact ⟨by decide, h.1, h.2⟩
  | outputEnable p =>
    cases hp
    cases p <;> exact fits_narrow (by decide) (codes_lt (by decide)) h
  | function p =>
    cases hp
    cases p <;> exact fits_narrow (by decide) (codes_lt (by decide)) h
  | fifoMode =>
    cases hp
    exact fits_narrow (by decide) (codes_lt (by decide)) h
  | fifoWatermark =>
    cases hp
    obtain ⟨n, hn, rfl⟩ := h
    simp at hn
    exact ⟨by decide, Int.natCast_nonneg n, Nat.lt_of_le_of_lt hn.2 (by decide)⟩
  | hysteresis =>
    cases hp
    obtain ⟨(hlo : 0 ≤ v), (hhi : v ≤ 1023)⟩ := h
    have hlt : v.toNat < 1024 := by omega
    exact ⟨by decide, hlo, hlt⟩
  | threshold t =>
    cases hp
    cases t <;> exact ⟨by decide, h.1, h.2⟩
  | filterSelect =>
    cases hp
    exact fits_narrow (by decide) (codes_lt (by decide)) h
  | sincRate =>
    cases hp
    exact fits_narrow (by decide) (codes_lt (by decide)) h
  | deviceMode =>
    cases hp
    refine fits_narrow (by decide) (fun n hn => ?_) h
    simp at hn
    change n < 4
    omega

/-- A setting other than the watermark is one value put into its place. -/
theorem Setting.apply_eq {s : Setting} (hs : s.attribute ≠ .fifoWatermark) :
    ∃ p, s.attribute.place? = some p ∧ s.apply = Driver.onBoard (p.put s.value) := by
  have hbyte : ∀ (f : Field) (c : UInt8),
      Driver.onBoard (Converter.setField f c) = Driver.onBoard ((Place.narrow f).put c.toNat) := by
    intro f c
    unfold Place.put
    rw [Int.toNat_natCast, UInt8.ofNat_toNat]
  cases s with
  | offset c => exact ⟨_, rfl, rfl⟩
  | direction p d => exact ⟨_, rfl, hbyte _ _⟩
  | function p f => exact ⟨_, rfl, hbyte _ _⟩
  | fifoMode m => exact ⟨_, rfl, hbyte _ _⟩
  | watermark w => exact absurd rfl hs
  | hysteresis c =>
    refine ⟨_, rfl, ?_⟩
    unfold apply value Place.put
    dsimp only
    rw [Int.toNat_natCast, UInt16.ofNat_toNat]
    rfl
  | threshold t c => exact ⟨_, rfl, rfl⟩
  | filter f => exact ⟨_, rfl, hbyte _ _⟩
  | sincRate r => exact ⟨_, rfl, hbyte _ _⟩
  | operatingMode m => exact ⟨_, rfl, hbyte _ _⟩

end Attribute

/-- Nothing can be stored with an index before those of the writable attributes or beyond them. -/
theorem Attribute.not_accepts {index : Nat} {a : Attribute} {input : String}
    (ha : ofIndex? index = some a) (h : index ≤ 1 ∨ 19 ≤ index) : ¬ a.domain.Accepts input := by
  rcases h with h | h
  · obtain rfl | rfl : index = 0 ∨ index = 1 := by omega
    · cases ha
      exact id
    · cases ha
      exact id
  · have hnone : ofIndex? index = none := List.getElem?_eq_none h
    exact nomatch hnone.symm.trans ha

/-! ## Storing a value -/

/-- Nothing happened on the board but that messages were logged. -/
def Board.Untouched (b c : Board) : Prop :=
  ∃ ms : List Message, c = { b with record := ms.map Event.log ++ b.record }

namespace Driver

/-- Nothing happened to the driver but that messages were logged. -/
structure Untouched (d e : Driver) : Prop where
  board : d.fifo.board.Untouched e.fifo.board
  fifo : e.fifo = { d.fifo with board := e.fifo.board }
  capture : e.capture = d.capture
  captureTimeout : e.captureTimeout = d.captureTimeout
  signed : e.completion.signed = d.completion.signed

theorem Untouched.refl (d : Driver) : d.Untouched d := ⟨⟨[], rfl⟩, rfl, rfl, rfl, rfl⟩

theorem Untouched.noted (d : Driver) (m : Message) :
    d.Untouched (d.withBoard (d.fifo.board.noted m)) := ⟨⟨[m], rfl⟩, rfl, rfl, rfl, rfl⟩

/-- What becomes of a value that the attribute admits. It is never refused; if the call ends well
the converter holds it, and the buffers are for it if it is the watermark; and the call ends well
if no capture is pending and nothing fails. -/
structure Stored (a : Attribute) (v : Int) (d : Driver) (x : Outcome Cause Unit × Driver) :
    Prop where
  valid : x.1 ≠ .error .invalidArgument
  held : x.1 = .ok () → a.held x.2.fifo.board.chip = some v ∧
    (a = .fifoWatermark → (x.2.watermark : Int) = v)
  healthy : d.capture = .idle → d.fifo.board.Healthy → x.1 = .ok ()

variable {d : Driver} {a : Attribute} {v : Int}

theorem onBoard_stored {p : Place} (hp : a.place? = some p) (hfits : p.Fits v)
    (ha : a ≠ .fifoWatermark) (d : Driver) : Stored a v d (onBoard (p.put v) d) := by
  rcases hput : p.put v d.fifo.board with ⟨o, c⟩
  rw [onBoard_eq hput]
  constructor
  · rintro rfl
    exact Place.put_never hfits _ _ hput
  · rintro rfl
    refine ⟨?_, fun h => absurd h ha⟩
    have hchip : (d.withBoard c).fifo.board.chip = p.write v d.fifo.board.chip :=
      Place.put_done hfits hput
    unfold Attribute.held
    rw [hp, hchip]
    exact congrArg some (Place.held_write hfits _)
  · intro _ hb
    obtain ⟨c', hc, -⟩ := Place.put_answers hfits hb.reliable
    exact congrArg Prod.fst (hput.symm.trans hc)

theorem setWatermark_stored {n : Nat} (h1 : 1 ≤ n) (h2 : n ≤ fifoDepth) (hd : d.Sound) :
    Stored .fifoWatermark n d (setWatermark n d) := by
  cases hc : d.capture with
  | armed =>
    rw [setWatermark_armed hc]
    exact ⟨nofun, nofun, fun hidle => nomatch hc.symm.trans hidle⟩
  | idle =>
    have hends := Fifo.setWatermark_ends n d.fifo
    rcases hrun : Fifo.setWatermark n d.fifo with ⟨o, f⟩
    have hhealthy : d.fifo.board.Healthy → o = .ok () := by
      intro hb
      obtain ⟨c, hok, -⟩ := Fifo.setWatermark_healthy hd.live hb h1 h2
      exact congrArg Prod.fst (hrun.symm.trans hok)
    rw [setWatermark_idle hc, onFifo_eq hrun]
    rw [hrun] at hends
    refine ⟨?_, ?_, fun _ => hhealthy⟩
    · rintro rfl
      cases hends with
      | refused h =>
        rw [hd.live] at h
        rcases h with h | h | h
        · cases h
        · omega
        · omega
      | undisabled hoff => cases hoff
      | unprogrammed _ _ hset => cases hset
    · rintro rfl
      cases hends with
      | @done b c e m _ _ hoff hnew hset =>
        have hchip : e.chip.watermark.toNat = n := by
          rw [hset.done]
          exact Chip.watermark_setWide h2 _
        refine ⟨congrArg some (congrArg Int.ofNat hchip), fun _ => ?_⟩
        exact congrArg Int.ofNat (Buffers.watermark_blank n)

/-- A setting whose value the attribute admits takes effect. -/
theorem apply_stored {s : Attribute.Setting} (hs : s.attribute.domain.Admits s.value)
    (hd : d.Sound) : Stored s.attribute s.value d (s.apply d) := by
  by_cases hwatermark : s.attribute = .fifoWatermark
  · cases s with
    | watermark w =>
      obtain ⟨n, hn, hw⟩ := hs
      cases Int.ofNat.inj hw
      simp at hn
      exact setWatermark_stored hn.1 hn.2 hd
    | _ => cases hwatermark
  · obtain ⟨p, hp, happly⟩ := Attribute.Setting.apply_eq hwatermark
    rw [happly]
    exact onBoard_stored hp (Attribute.place_fits hp hs) hwatermark d

/-! ## Storing a text -/

/-- A text that the attribute does not accept is refused, once it is in the log. -/
theorem storeAttribute_refused {i : Nat} {input : String} (ha : Attribute.ofIndex? i = some a)
    (h : ¬ a.domain.Accepts input) :
    storeAttribute i input d = (.error .invalidArgument,
      d.withBoard (d.fifo.board.noted (.attributeStored a.name input))) := by
  have hparse := Attribute.parse_ends a input
  unfold storeAttribute
  rw [ha]
  dsimp only
  generalize a.parse input = o at hparse
  cases hparse with
  | refused _ => rfl
  | taken hv => exact absurd hv.accepts h

/-- A text that denotes a value asks for the setting of that value, once it is in the log. -/
theorem storeAttribute_taken {i : Nat} {input : String} (ha : Attribute.ofIndex? i = some a)
    (hv : a.domain.Denotes input v) :
    ∃ s : Attribute.Setting, s.attribute = a ∧ s.value = v ∧ storeAttribute i input d =
      s.apply (d.withBoard (d.fifo.board.noted (.attributeStored a.name input))) := by
  have hlog : onBoard (Board.log (.attributeStored a.name input)) d = ((.ok (),
      d.withBoard (d.fifo.board.noted (.attributeStored a.name input))) :
        Outcome Cause Unit × Driver) := rfl
  have hattribute := @Attribute.parse_attribute a input
  have hparse := Attribute.parse_ends a input
  unfold storeAttribute
  rw [ha]
  dsimp only
  rw [Action.bind_ok _ hlog]
  generalize a.parse input = o at hattribute hparse
  cases hparse with
  | refused h => exact absurd hv.accepts h
  | @taken s h => exact ⟨s, hattribute rfl, h.unique hv, rfl⟩

/-- What storing a text into the attribute with an index can do to a driver. -/
inductive InputEnds (index : Nat) (input : String) (d : Driver) :
    Outcome Cause Unit × Driver → Prop where
  /-- There is no such attribute, or it does not accept the text. -/
  | refused {e : Driver}
      (h : ∀ a, Attribute.ofIndex? index = some a → ¬ a.domain.Accepts input)
      (huntouched : d.Untouched e) : InputEnds index input d (.error .invalidArgument, e)
  /-- The value that the text denotes is stored. -/
  | taken {a : Attribute} {v : Int} {x : Outcome Cause Unit × Driver}
      (hindex : Attribute.ofIndex? index = some a) (hdenotes : a.domain.Denotes input v)
      (hstored : Stored a v d x) : InputEnds index input d x

theorem storeAttribute_input (hd : d.Sound) (index : Nat) (input : String) :
    InputEnds index input d (storeAttribute index input d) := by
  cases hindex : Attribute.ofIndex? index with
  | none =>
    unfold storeAttribute
    rw [hindex]
    exact .refused (fun a ha => nomatch hindex.symm.trans ha) (.refl d)
  | some a =>
    by_cases haccepts : a.domain.Accepts input
    · obtain ⟨v, hv⟩ := a.accepts_denotes haccepts
      obtain ⟨s, rfl, rfl, hrun⟩ := storeAttribute_taken (d := d) hindex hv
      rw [hrun]
      obtain ⟨hvalid, hheld, hhealthy⟩ := apply_stored hv.admits (hd.withBoard _)
      exact .taken hindex hv ⟨hvalid, hheld, fun hidle hb => hhealthy hidle (hb.noted _)⟩
    · rw [storeAttribute_refused hindex haccepts]
      refine .refused (fun b hb => ?_) (.noted d _)
      cases hindex.symm.trans hb
      exact haccepts

/-- Storing a text into an attribute of an idle driver that some run has left. The text is refused
exactly if there is no attribute with the index or its domain does not accept the text, which is so
for `raw`, for `scale` and beyond the last index; then nothing happens but that a message is
logged. Otherwise the text denotes a value that the attribute admits: if the call ends well the
converter holds that value and no other, and it ends well if no access and no reservation fails. -/
theorem storeAttribute_accepts (h : d.Reachable) (hidle : d.capture = .idle) (index : Nat)
    (input : String) :
    let x := storeAttribute index input d
    (x.1 = .error .invalidArgument ↔
        ¬ ∃ a, Attribute.ofIndex? index = some a ∧ a.domain.Accepts input) ∧
      (x.1 = .error .invalidArgument → d.Untouched x.2) ∧
      (index ≤ 1 ∨ 19 ≤ index → x.1 = .error .invalidArgument) ∧
      ∀ a, Attribute.ofIndex? index = some a → a.domain.Accepts input →
        ∃ v, a.domain.Denotes input v ∧ a.domain.Admits v ∧
          (x.1 = .ok () → a.held x.2.fifo.board.chip = some v ∧
            (a = .fifoWatermark → (x.2.watermark : Int) = v)) ∧
          (d.fifo.board.Healthy → x.1 = .ok ()) := by
  have hends := storeAttribute_input h.sound index input
  dsimp only
  generalize storeAttribute index input d = x at hends
  cases hends with
  | refused hnone huntouched =>
    refine ⟨⟨fun _ => ?_, fun _ => rfl⟩, fun _ => huntouched, fun _ => rfl, ?_⟩
    · rintro ⟨a, ha, haccepts⟩
      exact hnone a ha haccepts
    · exact fun a ha haccepts => absurd haccepts (hnone a ha)
  | @taken a v _ hindex hdenotes hstored =>
    refine ⟨⟨fun hx => absurd hx hstored.valid, fun hnone => ?_⟩,
      fun hx => absurd hx hstored.valid, fun hbeyond => ?_, fun b hb _ => ?_⟩
    · exact absurd ⟨a, hindex, hdenotes.accepts⟩ hnone
    · exact absurd hdenotes.accepts (Attribute.not_accepts hindex hbeyond)
    · cases hindex.symm.trans hb
      exact ⟨v, hdenotes, hdenotes.admits, hstored.held, hstored.healthy hidle⟩

/-- A hexadecimal watermark of more than one byte is stored, a decimal one beyond the depth of the
FIFO is refused. -/
theorem storeAttribute_accepts_watermark :
    ∃ d, (init { watermark := 2 } (Board.probed [])).1 = .ok d ∧
      (storeAttribute 12 "0x103" d).1 = .ok () ∧
      Attribute.held (storeAttribute 12 "0x103" d).2.fifo.board.chip .fifoWatermark = some 259 ∧
      (storeAttribute 12 "0x103" d).2.watermark = 259 ∧
      (storeAttribute 12 "16385" d).1 = .error .invalidArgument ∧
      d.Untouched (storeAttribute 12 "16385" d).2 := by
  have hrun : ((init { watermark := 2 } (Board.probed [])).1.map fun d =>
      (d.capture, (storeAttribute 12 "0x103" d).1)) = .ok (.idle, .ok ()) := by decide +kernel
  obtain ⟨d, hinit, hrun⟩ := Outcome.of_map_ok hrun
  obtain ⟨hidle, hok⟩ := Prod.mk.inj hrun
  have hd : d.Reachable := ⟨Store, inferInstance, _, _, d, fun _ => { capacity := 0 }, [], hinit,
    List.mem_singleton.mpr rfl⟩
  have hnumeral : Text.unsigned? "0x103" = some 259 := by decide +kernel
  have hbeyond : Text.unsigned? "16385" = some 16385 := by decide +kernel
  obtain ⟨-, -, -, htaken⟩ := storeAttribute_accepts hd hidle 12 "0x103"
  obtain ⟨hrefused, huntouched, -⟩ := storeAttribute_accepts hd hidle 12 "16385"
  obtain ⟨v, ⟨n, hn, -, rfl⟩, -, hheld, -⟩ := htaken .fifoWatermark rfl ⟨259, hnumeral, rfl⟩
  cases hnumeral.symm.trans hn
  have hinvalid : (storeAttribute 12 "16385" d).1 = .error .invalidArgument := by
    refine hrefused.mpr ?_
    rintro ⟨a, ha, haccepts⟩
    cases ha
    exact nomatch (Attribute.Domain.codes_unsigned hbeyond).mp haccepts
  exact ⟨d, hinit, hok, (hheld hok).1, Int.ofNat.inj ((hheld hok).2 rfl), hinvalid,
    huntouched hinvalid⟩

end Driver

end AdcCapture
