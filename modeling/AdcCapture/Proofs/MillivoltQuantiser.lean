/-
  Codes as a quantiser of millivolts. Every number has a code in the range, numbers in order have
  codes in order, and the millivolts of a code have that code again
  (`Millivolts.toCode_quantises`), for each of the ranges that the converter's fields have
  (`Millivolts.FieldRange`). Clamping, division by a step and the nearest integer each keep the
  order of numbers; what is left is that the bounds are in order.
-/
import AdcCapture.Proofs.AttributeInput
import AdcCapture.Proofs.MillivoltCodes
import AdcCapture.Proofs.RoundingOrder

namespace AdcCapture.Millivolts

open Attribute (Ordered)

/-- The fields that are set in millivolts: the step of a code, the least code and the greatest. -/
inductive FieldRange : Binary32 → Int → Int → Prop where
  | offset : FieldRange offsetStep (-2048) 2047
  | threshold : FieldRange eventStep (-2048) 2047
  | hysteresis : FieldRange eventStep 0 1023

namespace FieldRange

variable {step : Binary32} {lo hi : Int} (h : FieldRange step lo hi)
include h

theorem stepped : Stepped step := by
  cases h with
  | offset => exact offset_stepped
  | threshold => exact event_stepped
  | hysteresis => exact event_stepped

theorem ordered : Ordered step lo hi := by
  cases h with
  | offset => exact Attribute.offset_ordered
  | threshold => exact Attribute.threshold_ordered .high
  | hysteresis => exact Attribute.hysteresis_ordered

theorem bounded : -4096 ≤ lo ∧ hi ≤ 4096 := by
  cases h <;> decide

end FieldRange

variable {ε : Type}

/-- Cutting to a range keeps the order of numbers. -/
theorem clamp_mono {lo hi x y : Binary32} (hrange : lo.le hi = true) (h : x.le y = true) :
    ∃ u v, clamp lo hi x = (.ok u : Outcome ε Binary32) ∧
      clamp lo hi y = (.ok v : Outcome ε Binary32) ∧ u.le v = true := by
  obtain ⟨hlo, hhi, hbounds⟩ := Binary32.le_iff.mp hrange
  obtain ⟨hx, hy, hle⟩ := Binary32.le_iff.mp h
  unfold clamp
  rw [if_pos hrange, if_pos hrange]
  refine ⟨_, _, rfl, rfl, ?_⟩
  simp only [Binary32.lt_iff, hlo, hhi, hx, hy, true_and]
  split_ifs <;> refine Binary32.le_iff.mpr ⟨‹_›, ‹_›, ?_⟩ <;> omega

/-- Numbers in order have their codes in order. -/
theorem toCode_mono {step : Binary32} {lo hi m n : Int} (h : Stepped step)
    (hordered : Ordered step lo hi) {x y : Binary32} (hle : x.le y = true)
    (hm : toCode x step lo hi = (.ok m : Outcome ε Int))
    (hn : toCode y step lo hi = (.ok n : Outcome ε Int)) : m ≤ n := by
  obtain ⟨u, v, hu, hv, huv⟩ := clamp_mono (ε := ε) hordered.millivolts hle
  have hcodes := Binary32.toIntWithin_mono (Binary32.div_mono h.finite h.pos huv)
    (by decide : (-32768 : Int) ≤ 32767)
  unfold toCode at hm hn
  rw [hu] at hm
  rw [hv] at hn
  dsimp only at hm hn
  rw [if_pos hordered.codes] at hm hn
  cases hm
  cases hn
  omega

/-- What is set in millivolts is quantised soundly: of numbers in order, the infinities included,
the codes are there, in the range and in order; and every code of the range is the code of its own
millivolts. -/
theorem toCode_quantises {step : Binary32} {lo hi : Int} (h : FieldRange step lo hi) :
    (∀ x y : Binary32, x.le y = true → ∃ m n,
      toCode x step lo hi = (.ok m : Outcome ε Int) ∧
      toCode y step lo hi = (.ok n : Outcome ε Int) ∧ lo ≤ m ∧ m ≤ n ∧ n ≤ hi) ∧
    ∀ c, lo ≤ c → c ≤ hi →
      toCode (Binary32.ofInt c * step) step lo hi = (.ok c : Outcome ε Int) := by
  obtain ⟨hlow, hhigh⟩ := h.bounded
  constructor
  · intro x y hle
    obtain ⟨m, hm⟩ := Attribute.toCode_ok (ε := ε) h.ordered x
    obtain ⟨n, hn⟩ := Attribute.toCode_ok (ε := ε) h.ordered y
    exact ⟨m, n, hm, hn, (Attribute.toCode_range hm).1, toCode_mono h.stepped h.ordered hle hm hn,
      (Attribute.toCode_range hn).2⟩
  · intro c hlo hhi
    obtain ⟨hfinite, hnear⟩ := ofCode_near h.stepped (by omega : -4096 ≤ c) (by omega)
    refine toCode_of_close h.stepped h.ordered hlo hhi hlow hhigh hfinite (hnear.trans ?_)
    linarith [h.stepped.pos]

/-- From below every number to just above the half of a step: the codes 0 and 1. -/
theorem toCode_quantises_half :
    let x := Binary32.infinity true
    let y := Binary32.ofDecimal false 7325 (-4)
    FieldRange eventStep 0 1023 ∧ x.le y = true ∧
      toCode x eventStep 0 1023 = (.ok 0 : Outcome Cause Int) ∧
      toCode y eventStep 0 1023 = (.ok 1 : Outcome Cause Int) ∧ (0 : Int) ≤ 1 ∧
      toCode (Binary32.ofInt 1023 * eventStep) eventStep 0 1023 =
        (.ok 1023 : Outcome Cause Int) := by
  intro x y
  have hle : x.le y = true := by decide +kernel
  obtain ⟨hmono, hcodes⟩ := toCode_quantises (ε := Cause) .hysteresis
  obtain ⟨m, n, hm, hn, -, hmn, -⟩ := hmono x y hle
  have hx : toCode x eventStep 0 1023 = (.ok 0 : Outcome Cause Int) := by decide +kernel
  have hy : toCode y eventStep 0 1023 = (.ok 1 : Outcome Cause Int) := by decide +kernel
  cases hm.symm.trans hx
  cases hn.symm.trans hy
  exact ⟨.hysteresis, hle, hx, hy, hmn, hcodes 1023 (by decide) (by decide)⟩

end AdcCapture.Millivolts
