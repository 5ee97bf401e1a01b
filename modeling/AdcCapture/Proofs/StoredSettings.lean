/-
  What storing a text into an attribute does to the driver. A text asks for a setting of the
  attribute that it was stored into (`Attribute.parse_attribute`). Two of the settings concern the
  FIFO: its mode is one write to its register, its watermark goes the way of every change of the
  watermark. All other settings leave the FIFO and its registers alone (`storeAttribute_ends`).
-/
import AdcCapture.Proofs.Passages

namespace AdcCapture

namespace Attribute

/-- The attribute that a setting is one of. -/
def Setting.attribute : Setting → Attribute
  | offset _ => .offset
  | direction p _ => .outputEnable p
  | function p _ => .function p
  | fifoMode _ => .fifoMode
  | watermark _ => .fifoWatermark
  | hysteresis _ => .hysteresis
  | threshold t _ => .threshold t
  | filter _ => .filterSelect
  | sincRate _ => .sincRate
  | operatingMode _ => .deviceMode

theorem of_map_setting {ε α : Type} {f : α → Setting} {o : Outcome ε α} {s : Setting}
    {a : Attribute} (h : o.map f = .ok s) (hf : ∀ v, (f v).attribute = a) : s.attribute = a := by
  obtain ⟨v, -, rfl⟩ := Outcome.of_map_ok h
  exact hf v

theorem parse_attribute {a : Attribute} {input : String} {s : Setting}
    (h : a.parse input = .ok s) : s.attribute = a := by
  cases a with
  | raw => cases h
  | scale => cases h
  | offset => exact of_map_setting h fun _ => rfl
  | outputEnable p => exact of_map_setting h fun _ => rfl
  | function p => exact of_map_setting h fun _ => rfl
  | fifoMode => exact of_map_setting h fun _ => rfl
  | fifoWatermark => exact of_map_setting h fun _ => rfl
  | hysteresis => exact of_map_setting h fun _ => rfl
  | threshold t => exact of_map_setting h fun _ => rfl
  | filterSelect => exact of_map_setting h fun _ => rfl
  | sincRate => exact of_map_setting h fun _ => rfl
  | deviceMode => exact of_map_setting h fun _ => rfl

end Attribute

namespace Board.Rules

theorem elsewhere_setField {f : Field} (v : UInt8) (h : Register.isFifo f.address = false)
    (hw : Instruction.wired f.address = f.address) :
    (Converter.setField f v).Obeys elsewhere.contract :=
  elsewhere.setField f v h (hw.symm ▸ h)

theorem elsewhere_wide {f : WideField} (hlow : Register.isFifo f.low = false)
    (hhigh : Register.isFifo f.high = false) (hl : Instruction.wired f.low = f.low)
    (hh : Instruction.wired f.high = f.high) : elsewhere.PermitsWide f :=
  ⟨hlow, hl.symm ▸ hlow, hhigh, hh.symm ▸ hhigh⟩

end Board.Rules

namespace Attribute.Setting

open Board.Rules (elsewhere elsewhere_setField elsewhere_wide)

/-- A setting that is not one of the FIFO's is put into effect away from the FIFO. -/
theorem apply_elsewhere {s : Setting} (hmode : s.attribute ≠ .fifoMode)
    (hwatermark : s.attribute ≠ .fifoWatermark) :
    ∃ a : Call Board Unit, s.apply = Driver.onBoard a ∧ a.Obeys elsewhere.contract := by
  cases s with
  | offset v => exact ⟨_, rfl, Board.Rules.setSigned v (elsewhere_wide rfl rfl rfl rfl)⟩
  | direction p d => cases p <;> exact ⟨_, rfl, elsewhere_setField _ rfl rfl⟩
  | function p f => cases p <;> exact ⟨_, rfl, elsewhere_setField _ rfl rfl⟩
  | fifoMode m => exact absurd rfl hmode
  | watermark w => exact absurd rfl hwatermark
  | hysteresis v => exact ⟨_, rfl, Board.Rules.setWide v (elsewhere_wide rfl rfl rfl rfl)⟩
  | threshold t v =>
    cases t <;> exact ⟨_, rfl, Board.Rules.setSigned v (elsewhere_wide rfl rfl rfl rfl)⟩
  | filter f => exact ⟨_, rfl, elsewhere_setField _ rfl rfl⟩
  | sincRate r => exact ⟨_, rfl, elsewhere_setField _ rfl rfl⟩
  | operatingMode m => exact ⟨_, rfl, elsewhere_setField _ rfl rfl⟩

end Attribute.Setting

namespace Driver

open Board.Rules (elsewhere)

/-- What storing a text into the attribute with an index can do to the driver `x`. -/
inductive StoreEnds (index : Nat) (input : String) (x : Driver) :
    Outcome Cause Unit × Driver → Prop where
  /-- The text was refused, or the setting is none of the FIFO's. -/
  | aside {o : Outcome Cause Unit} {b : Board} (h : elsewhere.allows x.fifo.board b) :
      StoreEnds index input x (o, x.withBoard b)
  | mode {m : FifoMode} {note : Message} {o : Outcome Cause Unit} {b : Board}
      (hindex : Attribute.ofIndex? index = some .fifoMode)
      (h : Converter.setFifoMode m (x.fifo.board.noted note) = (o, b)) :
      StoreEnds index input x (o, x.withBoard b)
  | watermark {w : Nat} {note : Message} {o : Outcome Cause Unit} {y : Driver}
      (hindex : Attribute.ofIndex? index = some .fifoWatermark)
      (hparse : Attribute.parse .fifoWatermark input = .ok (.watermark w))
      (h : setWatermark w (x.withBoard (x.fifo.board.noted note)) = (o, y)) :
      StoreEnds index input x (o, y)

theorem storeAttribute_ends (index : Nat) (input : String) (x : Driver) :
    StoreEnds index input x (storeAttribute index input x) := by
  unfold storeAttribute
  cases hindex : Attribute.ofIndex? index with
  | none => exact .aside (elsewhere.refl x.fifo.board)
  | some a =>
    have hnoted : elsewhere.allows x.fifo.board
        (x.fifo.board.noted (.attributeStored a.name input)) :=
      (elsewhere.log (ε := Cause) _ _ trivial).allowed
    have hlog : onBoard (Board.log (.attributeStored a.name input)) x = ((.ok (),
        x.withBoard (x.fifo.board.noted (.attributeStored a.name input))) :
          Outcome Cause Unit × Driver) := rfl
    dsimp only
    rw [Action.bind_ok _ hlog]
    cases hparse : a.parse input with
    | fault b =>
      have hsure := Attribute.parse_sure a input
      rw [hparse] at hsure
      cases hsure
    | error e => exact .aside hnoted
    | ok s =>
      have hattribute := Attribute.parse_attribute hparse
      rw [Action.give_ok_bind]
      by_cases hmode : s.attribute = .fifoMode
      · cases s with
        | fifoMode m =>
          cases hattribute
          exact .mode hindex rfl
        | _ => cases hmode
      by_cases hwatermark : s.attribute = .fifoWatermark
      · cases s with
        | watermark w =>
          cases hattribute
          exact .watermark hindex hparse rfl
        | _ => cases hwatermark
      obtain ⟨f, happly, hf⟩ := Attribute.Setting.apply_elsewhere hmode hwatermark
      rw [happly]
      exact .aside (elsewhere.trans hnoted (hf _ trivial).allowed)

end Driver

end AdcCapture
