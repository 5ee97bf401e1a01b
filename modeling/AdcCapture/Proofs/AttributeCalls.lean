/-
  What showing and storing an attribute can do. Reading its text keeps to what the reads of single
  registers keep to (`registerText_reads`); whatever text is stored into it is taken or refused, and
  no assertion is broken (`parse_sure`): the ranges of the codes are in order, also after their
  bounds were turned into millivolts.
-/
import AdcCapture.Attribute.Access
import AdcCapture.Proofs.BoardCalls

namespace AdcCapture

namespace Attribute

section Reads

variable {c : Contract Board}
  (hread : ∀ a, Instruction.wired a = a → (Converter.read a).Obeys c)
include hread

theorem getField_reads {f : Field} (hf : Instruction.wired f.address = f.address) {α : Type}
    (g : UInt8 → α) : (do return g (← Converter.getField f) : Call Board α).Obeys c :=
  .bind (.bind (hread _ hf) fun _ => .pure _) fun _ => .pure _

theorem getWide_reads {f : WideField} (hlow : Instruction.wired f.low = f.low)
    (hhigh : Instruction.wired f.high = f.high) : (Converter.getWide f).Obeys c :=
  .bind (hread _ hhigh) fun _ => .bind (hread _ hlow) fun _ => .pure _

theorem getSigned_reads {f : WideField} (hlow : Instruction.wired f.low = f.low)
    (hhigh : Instruction.wired f.high = f.high) : (Converter.getSigned f).Obeys c :=
  .bind (getWide_reads hread hlow hhigh) fun _ => .pure _

/-- To show an attribute, registers are read and nothing else is done. -/
theorem registerText_reads (a : Attribute) : a.registerText.Obeys c := by
  cases a with
  | raw => exact .fail _
  | scale => exact .pure _
  | offset => exact .bind (getSigned_reads hread (by decide) (by decide)) fun _ => .pure _
  | outputEnable p =>
    exact .bind (getField_reads hread (by cases p <;> decide) _) fun _ => .pure _
  | function p =>
    refine .bind ?_ fun _ => .pure _
    exact getField_reads hread (by cases p <;> decide) _
  | fifoMode => exact .bind (getField_reads hread (by decide) _) fun _ => .pure _
  | fifoWatermark => exact .bind (getWide_reads hread (by decide) (by decide)) fun _ => .pure _
  | hysteresis => exact .bind (getWide_reads hread (by decide) (by decide)) fun _ => .pure _
  | threshold t =>
    refine .bind ?_ fun _ => .pure _
    cases t <;> exact getSigned_reads hread (by decide) (by decide)
  | filterSelect => exact .bind (getField_reads hread (by decide) _) fun _ => .pure _
  | sincRate => exact .bind (.bind (hread _ (by decide)) fun _ => .pure _) fun _ => .pure _
  | deviceMode => exact .bind (getField_reads hread (by decide) _) fun _ => .pure _

end Reads

/-- Reading an attribute out of the converter needs no deed that rules could forbid. -/
theorem registerText_obeys (R : Board.Rules) (a : Attribute) :
    a.registerText.Obeys R.contract := registerText_reads (fun a _ => R.read a) a

theorem fault?_map {ε α β : Type} (f : α → β) (o : Outcome ε α) :
    (o.map f).fault? = o.fault? := by
  cases o <;> rfl

theorem orInvalid_sure {α : Type} (x : Option α) : (orInvalid x).fault? = none := by
  cases x <;> rfl

theorem codedBy_sure {α : Type} (ofCode? : UInt8 → Option α) (limit : Nat) (input : String) :
    (codedBy ofCode? limit input).fault? = none := by
  have hsure := orInvalid_sure ((Text.unsigned? input).filter (· ≤ limit))
  unfold codedBy upTo
  cases h : orInvalid ((Text.unsigned? input).filter (· ≤ limit)) with
  | ok n => exact orInvalid_sure _
  | error e => rfl
  | fault b =>
    rw [h] at hsure
    cases hsure

/-- A range of codes whose bounds are in order, and stay so in millivolts. -/
structure Ordered (step : Binary32) (lo hi : Int) : Prop where
  codes : lo ≤ hi
  millivolts : (Binary32.ofInt lo * step).le (Binary32.ofInt hi * step) = true

theorem toCode_ok {ε : Type} {step : Binary32} {lo hi : Int} (h : Ordered step lo hi)
    (mv : Binary32) : ∃ c, Millivolts.toCode mv step lo hi = (.ok c : Outcome ε Int) := by
  unfold Millivolts.toCode Millivolts.clamp
  rw [if_pos h.millivolts]
  dsimp only
  rw [if_pos h.codes]
  exact ⟨_, rfl⟩

theorem codeOf_sure {step : Binary32} {lo hi : Int} (h : Ordered step lo hi) (input : String) :
    (codeOf input step lo hi).fault? = none := by
  unfold codeOf
  cases Millivolts.ofText? input with
  | none => rfl
  | some mv =>
    obtain ⟨c, hc⟩ := toCode_ok (ε := Cause) h mv
    dsimp only
    rw [hc]
    rfl

theorem offset_ordered : Ordered Millivolts.offsetStep WideField.offset.minSigned
    WideField.offset.maxSigned := ⟨by decide, by decide +kernel⟩

theorem hysteresis_ordered :
    Ordered Millivolts.eventStep 0 WideField.hysteresis.mask.toNat := ⟨by decide, by decide +kernel⟩

theorem threshold_ordered (t : Threshold) :
    Ordered Millivolts.eventStep t.field.minSigned t.field.maxSigned := by
  cases t with
  | high => exact ⟨by decide, by decide +kernel⟩
  | low => exact ⟨by decide, by decide +kernel⟩

/-- Whatever text is stored, it is taken or refused, and no assertion is broken. -/
theorem parse_sure (a : Attribute) (input : String) : (a.parse input).fault? = none := by
  cases a with
  | raw => rfl
  | scale => rfl
  | offset => exact (fault?_map _ _).trans (codeOf_sure offset_ordered input)
  | outputEnable p => exact (fault?_map _ _).trans (codedBy_sure _ _ _)
  | function p => exact (fault?_map _ _).trans (codedBy_sure _ _ _)
  | fifoMode => exact (fault?_map _ _).trans (orInvalid_sure _)
  | fifoWatermark => exact (fault?_map _ _).trans (orInvalid_sure _)
  | hysteresis => exact (fault?_map _ _).trans (codeOf_sure hysteresis_ordered input)
  | threshold t => exact (fault?_map _ _).trans (codeOf_sure (threshold_ordered t) input)
  | filterSelect => exact (fault?_map _ _).trans (orInvalid_sure _)
  | sincRate => exact (fault?_map _ _).trans (codedBy_sure _ _ _)
  | deviceMode => exact (fault?_map _ _).trans (codedBy_sure _ _ _)

end Attribute

end AdcCapture
