/-
  A code and its millivolts. The millivolts of a code are within a small part of a step of the exact
  product (`Millivolts.ofCode_near`), and whatever is within an eighth of a step of that product is
  taken for the code again (`Millivolts.toCode_of_close`).
-/
import AdcCapture.Proofs.AttributeCalls
import AdcCapture.Proofs.Rounding

namespace AdcCapture.Millivolts

open Attribute (Ordered)
open Binary32 (Near infinityPattern ofInt ofDecimal)

/-! ## Steps -/

/-- The step of a code is finite, and of the size that the steps of the converter have. -/
structure Stepped (step : Binary32) : Prop where
  finite : step.pattern < infinityPattern
  low : 1 / 200 ≤ step.toRat
  high : step.toRat ≤ 2

theorem stepped_of_near {step : Binary32} {v : ℚ} (h : Near step v) (hlow : 1 / 190 ≤ v)
    (hhigh : v ≤ 3 / 2) : Stepped step := by
  obtain ⟨hbelow, habove⟩ := abs_le.mp h.error
  rw [abs_of_nonneg (by linarith)] at hbelow habove
  norm_num at hbelow habove
  exact ⟨h.finite, by linarith, by linarith⟩

theorem offset_stepped : Stepped offsetStep :=
  stepped_of_near (Binary32.ofDecimal_near false (by decide) 5) (by norm_num [Binary32.sign])
    (by norm_num [Binary32.sign])

theorem event_stepped : Stepped eventStep :=
  stepped_of_near (Binary32.ofDecimal_near false (by decide) 5) (by norm_num [Binary32.sign])
    (by norm_num [Binary32.sign])

theorem abs_code_le {c : Int} (hlow : -4096 ≤ c) (hhigh : c ≤ 4096) : |(c : ℚ)| ≤ 4096 :=
  abs_le.mpr ⟨by exact_mod_cast hlow, by exact_mod_cast hhigh⟩

/-- A code cut to a range that it lies in. -/
theorem cut_eq {lo hi c : Int} (hlo : lo ≤ c) (hhi : c ≤ hi) : max lo (min hi c) = c := by omega

section Codes

variable {step : Binary32} (h : Stepped step) {c : Int}
include h

/-! ## From codes to millivolts -/

theorem Stepped.pos : 0 < step.toRat := by linarith [h.low]

/-- The product of a code and a step is rounded by far less than a step. -/
theorem ofCode_near (hlow : -4096 ≤ c) (hhigh : c ≤ 4096) :
    (ofInt c * step).pattern < infinityPattern ∧
      |(ofInt c * step).toRat - c * step.toRat| ≤ step.toRat / 1000 := by
  have hpos := h.pos
  have hstep := h.high
  have hcode := abs_code_le hlow hhigh
  have hn : Near (ofInt c) c := Binary32.ofInt_near (by omega)
  have herror : |(ofInt c).toRat - c| ≤ 1 / 4000 := by
    refine hn.error.trans ?_
    norm_num
    linarith
  have hsize : |(ofInt c).toRat| ≤ 4097 := by
    linarith [abs_sub_abs_le_abs_sub (ofInt c).toRat c]
  have hproduct : |(ofInt c).toRat * step.toRat| ≤ 4097 * step.toRat := by
    rw [abs_mul, abs_of_pos hpos]
    exact mul_le_mul_of_nonneg_right hsize hpos.le
  have hbound : |(ofInt c).toRat * step.toRat| < 2 ^ 127 := by
    refine hproduct.trans_lt ?_
    norm_num
    linarith
  obtain ⟨hfinite, hround⟩ := Binary32.mul_near hn.finite h.finite hbound
  refine ⟨hfinite, ?_⟩
  have hexact : |(ofInt c).toRat * step.toRat - c * step.toRat| ≤ step.toRat / 4000 := by
    rw [← sub_mul, abs_mul, abs_of_pos hpos]
    linarith [mul_le_mul_of_nonneg_right herror hpos.le]
  have hrounded : |(ofInt c * step).toRat - (ofInt c).toRat * step.toRat| ≤ step.toRat / 2000 := by
    have htiny : (1 : ℚ) / 2 ^ 150 ≤ step.toRat / 4000 := by
      norm_num
      linarith [h.low]
    have hpart : |(ofInt c).toRat * step.toRat| / 2 ^ 24 ≤ 4097 * step.toRat / 2 ^ 24 := by gcongr
    linarith
  have htriangle := abs_sub_le (ofInt c * step).toRat ((ofInt c).toRat * step.toRat)
    (c * step.toRat)
  linarith

theorem ofCode_size (hlow : -4096 ≤ c) (hhigh : c ≤ 4096) :
    |(ofInt c * step).toRat| ≤ 4097 * step.toRat := by
  obtain ⟨-, hnear⟩ := ofCode_near h hlow hhigh
  have hpos := h.pos
  have hexact : |(c : ℚ) * step.toRat| ≤ 4096 * step.toRat := by
    rw [abs_mul, abs_of_pos hpos]
    exact mul_le_mul_of_nonneg_right (abs_code_le hlow hhigh) hpos.le
  linarith [abs_sub_abs_le_abs_sub (ofInt c * step).toRat (c * step.toRat)]

/-! ## From millivolts to codes -/

/-- A quotient that is close to a code is rounded to it. -/
theorem toIntWithin_div {x : Binary32} (hx : x.pattern < infinityPattern)
    (hclose : |x.toRat - c * step.toRat| ≤ step.toRat / 4) (hlow : -4096 ≤ c) (hhigh : c ≤ 4096) :
    (x / step).toIntWithin (-32768) 32767 = c := by
  have hpos := h.pos
  have hquotient : |x.toRat / step.toRat - c| ≤ 1 / 4 := by
    have hsplit : x.toRat / step.toRat - c = (x.toRat - c * step.toRat) / step.toRat := by
      field_simp
    rw [hsplit, abs_div, abs_of_pos hpos, div_le_iff₀ hpos]
    linarith
  have hcode := abs_code_le hlow hhigh
  have hsize : |x.toRat / step.toRat| ≤ 4097 := by
    linarith [abs_sub_abs_le_abs_sub (x.toRat / step.toRat) c]
  have hbound : |x.toRat / step.toRat| < 2 ^ 127 := by
    refine hsize.trans_lt ?_
    norm_num
  obtain ⟨hfinite, hround⟩ := Binary32.div_near hx h.finite hpos.ne' hbound
  have hrounded : |(x / step).toRat - x.toRat / step.toRat| < 1 / 4 := by
    refine hround.trans_lt ?_
    norm_num
    linarith
  have hnearest : (x / step).nearestInt = c := by
    refine Binary32.nearestInt_eq ?_
    have htriangle := abs_sub_le (x / step).toRat (x.toRat / step.toRat) c
    linarith
  unfold Binary32.toIntWithin
  rw [Binary32.not_nan_of_finite hfinite, Binary32.not_infinite_of_finite hfinite, hnearest,
    if_neg Bool.false_ne_true, if_neg Bool.false_ne_true]
  exact cut_eq (by omega) (by omega)

/-- Cutting a value to a range of codes brings it no further from a code of that range. -/
theorem clamp_close {lo hi : Int} (hordered : Ordered step lo hi) (hlo : lo ≤ c) (hhi : c ≤ hi)
    (hlow : -4096 ≤ lo) (hhigh : hi ≤ 4096) {x : Binary32} (hx : x.pattern < infinityPattern)
    (hclose : |x.toRat - c * step.toRat| ≤ step.toRat / 8) {ε : Type} :
    ∃ y, clamp (ofInt lo * step) (ofInt hi * step) x = (.ok y : Outcome ε Binary32) ∧
      y.pattern < infinityPattern ∧ |y.toRat - c * step.toRat| ≤ step.toRat / 4 := by
  have hpos := h.pos
  obtain ⟨hlofinite, hlonear⟩ := ofCode_near h hlow (by omega : lo ≤ 4096)
  obtain ⟨hhifinite, hhinear⟩ := ofCode_near h (by omega : -4096 ≤ hi) hhigh
  have hlo' : (lo : ℚ) * step.toRat ≤ c * step.toRat :=
    mul_le_mul_of_nonneg_right (by exact_mod_cast hlo) hpos.le
  have hhi' : (c : ℚ) * step.toRat ≤ hi * step.toRat :=
    mul_le_mul_of_nonneg_right (by exact_mod_cast hhi) hpos.le
  obtain ⟨hbelow, habove⟩ := abs_le.mp hclose
  unfold clamp
  rw [if_pos hordered.millivolts]
  refine ⟨_, rfl, ?_⟩
  split
  · rename_i hlt
    have hle := Binary32.toRat_le_of_lt hlt
    obtain ⟨hlobelow, hloabove⟩ := abs_le.mp hlonear
    refine ⟨hlofinite, abs_le.mpr ⟨?_, ?_⟩⟩ <;> linarith
  · split
    · rename_i hlt
      have hle := Binary32.toRat_le_of_lt hlt
      obtain ⟨hhibelow, hhiabove⟩ := abs_le.mp hhinear
      refine ⟨hhifinite, abs_le.mpr ⟨?_, ?_⟩⟩ <;> linarith
    · refine ⟨hx, abs_le.mpr ⟨?_, ?_⟩⟩ <;> linarith

/-- A value that is within an eighth of a step of a code is taken for that code. -/
theorem toCode_of_close {lo hi : Int} (hordered : Ordered step lo hi) (hlo : lo ≤ c) (hhi : c ≤ hi)
    (hlow : -4096 ≤ lo) (hhigh : hi ≤ 4096) {x : Binary32} (hx : x.pattern < infinityPattern)
    (hclose : |x.toRat - c * step.toRat| ≤ step.toRat / 8) {ε : Type} :
    toCode x step lo hi = (.ok c : Outcome ε Int) := by
  obtain ⟨y, hclamp, hy, hclose'⟩ := clamp_close h hordered hlo hhi hlow hhigh hx hclose (ε := ε)
  unfold toCode
  rw [hclamp]
  dsimp only
  rw [if_pos hordered.codes, toIntWithin_div h hy hclose' (by omega) (by omega),
    cut_eq hlo hhi]

end Codes

end AdcCapture.Millivolts
