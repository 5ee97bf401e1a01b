/-
  How far a binary32 operation is from the exact result. Every finite number has an exact value
  (`Binary32.toRat`), and every operation rounds an exact quotient once, so its result is within a
  half of the last of 24 places, or of the least positive number (`Binary32.Near`). Comparisons and
  nearest integers are those of the exact values.
-/
import Mathlib.Algebra.Order.Field.Rat
import Mathlib.Data.Nat.Log
import Mathlib.Tactic.FieldSimp
import Mathlib.Tactic.GCongr
import Mathlib.Tactic.Linarith
import Mathlib.Tactic.NormNum
import Mathlib.Tactic.Positivity
import Mathlib.Tactic.Ring
import AdcCapture.Binary32.Basic

namespace AdcCapture

theorem roundHalfEven_cases (num den : Nat) :
    (roundHalfEven num den = num / den ∧ 2 * (num % den) ≤ den) ∨
      (roundHalfEven num den = num / den + 1 ∧ den ≤ 2 * (num % den)) := by
  unfold roundHalfEven
  dsimp only
  split
  · exact .inl ⟨rfl, by omega⟩
  · split
    · exact .inr ⟨rfl, by omega⟩
    · split
      · exact .inl ⟨rfl, by omega⟩
      · exact .inr ⟨rfl, by omega⟩

/-- A quotient is rounded by no more than a half. -/
theorem abs_roundHalfEven_sub {num den : Nat} (h : 0 < den) :
    |(roundHalfEven num den : ℚ) - num / den| ≤ 1 / 2 := by
  have hpos : (0 : ℚ) < den := by exact_mod_cast h
  have hquotient : (num : ℚ) / den = (num / den : Nat) + (num % den : Nat) / den := by
    have hnum : (num : ℚ) = den * (num / den : Nat) + (num % den : Nat) := by
      exact_mod_cast (Nat.div_add_mod num den).symm
    rw [div_eq_iff hpos.ne', add_mul, div_mul_cancel₀ _ hpos.ne']
    linarith
  rw [hquotient]
  rcases roundHalfEven_cases num den with ⟨hq, hr⟩ | ⟨hq, hr⟩
  · have hr' : 2 * ((num % den : Nat) : ℚ) ≤ den := by exact_mod_cast hr
    have hdiv : ((num % den : Nat) : ℚ) / den ≤ 1 / 2 := by
      rw [div_le_iff₀ hpos]
      linarith
    have hnonneg : (0 : ℚ) ≤ ((num % den : Nat) : ℚ) / den := by positivity
    rw [hq, abs_le]
    constructor <;> linarith
  · have hr' : (den : ℚ) ≤ 2 * (num % den : Nat) := by exact_mod_cast hr
    have hlt : ((num % den : Nat) : ℚ) ≤ den := by exact_mod_cast (Nat.mod_lt num h).le
    have hlow : 1 / 2 ≤ ((num % den : Nat) : ℚ) / den := by
      rw [le_div_iff₀ hpos]
      linarith
    have hhigh : ((num % den : Nat) : ℚ) / den ≤ 1 := by
      rw [div_le_iff₀ hpos]
      linarith
    rw [hq, Nat.cast_add, Nat.cast_one, abs_le]
    constructor <;> linarith

namespace Binary32

/-- A pattern that is put together from a step of the exponent and 24 leading bits stands for those
bits, doubled once per step. The 24 bits can be a power of two too large, for the carry of a
rounding moves on to the next exponent. -/
theorem unitsOf_shifted {shift q : Nat} (hq : q ≤ 1 <<< 24) (hlead : shift = 0 ∨ 1 <<< 23 ≤ q) :
    unitsOf (shift <<< 23 + q) = q <<< shift := by
  have htop : (1 <<< 23 : Nat) = 8388608 := rfl
  have htop' : (1 <<< 24 : Nat) = 16777216 := rfl
  rw [htop'] at hq
  rw [htop] at hlead
  unfold unitsOf
  rw [htop, Nat.shiftRight_eq_div_pow, Nat.shiftLeft_eq shift,
    show (2 : Nat) ^ 23 = 8388608 from rfl]
  by_cases hcarry : q = 16777216
  · have hdiv : (shift * 8388608 + q) / 8388608 = shift + 2 := by omega
    have hmod : (shift * 8388608 + q) % 8388608 = 0 := by omega
    rw [hdiv, hmod, if_neg (by omega), hcarry]
    rw [Nat.shiftLeft_eq, Nat.shiftLeft_eq, show shift + 2 - 1 = shift + 1 by omega, Nat.pow_succ]
    omega
  · by_cases hbig : 8388608 ≤ q
    · have hdiv : (shift * 8388608 + q) / 8388608 = shift + 1 := by omega
      have hmod : (shift * 8388608 + q) % 8388608 = q - 8388608 := by omega
      rw [hdiv, hmod, if_neg (by omega), Nat.add_sub_cancel, Nat.add_sub_cancel' hbig]
    · obtain rfl : shift = 0 := by omega
      have hdiv : (0 * 8388608 + q) / 8388608 = 0 := by omega
      rw [hdiv, if_pos rfl]
      simp

/-- The leading bit of a quotient is brought to the place of 24 bits, unless it is below. -/
theorem scaled_bounds {num den : Nat} (hden : 0 < den) :
    num < den <<< (Nat.log2 (num / den) - 23) * 2 ^ 24 ∧
      (Nat.log2 (num / den) - 23 = 0 ∨ den <<< (Nat.log2 (num / den) - 23) * 2 ^ 23 ≤ num) := by
  have hfloor : num < den * (num / den + 1) := Nat.lt_mul_div_succ num hden
  have hscale : ∀ s k, den <<< s * 2 ^ k = den * 2 ^ (s + k) := by
    intro s k
    rw [Nat.shiftLeft_eq, Nat.mul_assoc, ← Nat.pow_add]
  rw [hscale, hscale]
  constructor
  · have hlog : num / den < 2 ^ (Nat.log2 (num / den) - 23 + 24) :=
      Nat.lt_of_lt_of_le Nat.lt_log2_self (Nat.pow_le_pow_right (by decide) (by omega))
    exact Nat.lt_of_lt_of_le hfloor (Nat.mul_le_mul_left den hlog)
  · by_cases hzero : Nat.log2 (num / den) ≤ 23
    · exact .inl (by omega)
    · right
      have hne : num / den ≠ 0 := by
        intro h
        rw [h] at hzero
        exact hzero (by decide)
      have hlog : 2 ^ (Nat.log2 (num / den) - 23 + 23) ≤ num / den := by
        rw [Nat.sub_add_cancel (by omega)]
        exact Nat.log2_self_le hne
      calc den * 2 ^ (Nat.log2 (num / den) - 23 + 23) ≤ den * (num / den) :=
            Nat.mul_le_mul_left den hlog
        _ ≤ num := Nat.mul_div_le num den

/-- What is rounded on the grid of a quotient has 24 bits, or is the next power of two; it has all
of them unless the grid is the finest one. -/
theorem rounded_bounds {num den : Nat} (hden : 0 < den) :
    roundHalfEven num (den <<< (Nat.log2 (num / den) - 23)) ≤ 1 <<< 24 ∧
      (Nat.log2 (num / den) - 23 = 0 ∨
        1 <<< 23 ≤ roundHalfEven num (den <<< (Nat.log2 (num / den) - 23))) := by
  have htop : (1 <<< 23 : Nat) = 8388608 := rfl
  have htop' : (1 <<< 24 : Nat) = 16777216 := rfl
  obtain ⟨hhigh, hlow⟩ := @scaled_bounds num den hden
  rw [htop, htop']
  generalize Nat.log2 (num / den) - 23 = shift at hhigh hlow
  have hscaled : 0 < den <<< shift := by
    rw [Nat.shiftLeft_eq]
    positivity
  have hcases := roundHalfEven_cases num (den <<< shift)
  refine ⟨?_, hlow.imp_right fun h => ?_⟩
  · have hdiv : num / den <<< shift < 2 ^ 24 := Nat.div_lt_of_lt_mul hhigh
    omega
  · have hdiv : 2 ^ 23 ≤ num / den <<< shift := (Nat.le_div_iff_mul_le hscaled).mpr (by omega)
    omega

/-- The units of the pattern that a quotient is rounded to: at most half a unit in the last of 24
places away, or half a unit of the least number. -/
theorem unitsOf_roundPattern {num den : Nat} (hden : 0 < den) (hsmall : num < den * 2 ^ 276) :
    roundPattern num den < infinityPattern ∧
      |(unitsOf (roundPattern num den) : ℚ) - num / den| ≤ num / den / 2 ^ 24 + 1 / 2 := by
  obtain ⟨-, hlow⟩ := @scaled_bounds num den hden
  have hshift : Nat.log2 (num / den) - 23 ≤ 252 := by
    have hfloor : num / den < 2 ^ 276 := Nat.div_lt_of_lt_mul hsmall
    by_cases hne : num / den = 0
    · rw [hne]
      decide
    · have hlog := (Nat.log2_lt hne).mpr hfloor
      omega
  have hinfinity : infinityPattern = 255 * 8388608 := rfl
  have htop : (1 <<< 24 : Nat) = 16777216 := rfl
  obtain ⟨hq, hlead⟩ := @rounded_bounds num den hden
  unfold roundPattern
  dsimp only
  rw [hinfinity]
  generalize Nat.log2 (num / den) - 23 = shift at hlow hshift hq hlead
  have hscaled : 0 < den <<< shift := by
    rw [Nat.shiftLeft_eq]
    positivity
  have hround := @abs_roundHalfEven_sub num _ hscaled
  generalize roundHalfEven num (den <<< shift) = q at hround hq hlead
  have hpattern : shift <<< 23 + q < 255 * 8388608 := by
    rw [Nat.shiftLeft_eq]
    rw [htop] at hq
    omega
  rw [Nat.min_eq_left hpattern.le, unitsOf_shifted hq hlead]
  refine ⟨hpattern, ?_⟩
  have hpos : (0 : ℚ) < den := by exact_mod_cast hden
  have hdouble : (0 : ℚ) < 2 ^ shift := by positivity
  -- the error is at most half a step of the grid
  have herror : |((q <<< shift : Nat) : ℚ) - num / den| ≤ 2 ^ shift / 2 := by
    have hfactor : ((q <<< shift : Nat) : ℚ) - num / den =
        2 ^ shift * (q - num / (den <<< shift : Nat)) := by
      rw [Nat.shiftLeft_eq, Nat.shiftLeft_eq]
      push_cast
      field_simp
    rw [hfactor, abs_mul, abs_of_pos hdouble]
    linarith [mul_le_mul_of_nonneg_left hround hdouble.le]
  have hnonneg : (0 : ℚ) ≤ num / den := by positivity
  rcases hlow with rfl | h
  · rw [pow_zero] at herror
    linarith
  · have hgrid : (2 : ℚ) ^ shift * 2 ^ 23 ≤ num / den := by
      rw [le_div_iff₀ hpos]
      rw [Nat.shiftLeft_eq] at h
      have hcast : (den : ℚ) * 2 ^ shift * 2 ^ 23 ≤ num := by exact_mod_cast h
      linarith
    norm_num at hgrid ⊢
    linarith

/-! ## Exact values -/

/-- The factor of a sign. -/
def sign (negative : Bool) : ℚ := if negative then -1 else 1

theorem abs_sign (negative : Bool) : |sign negative| = 1 := by
  cases negative <;> simp [sign]

theorem sign_mul_self (negative : Bool) : sign negative * sign negative = 1 := by
  cases negative <;> simp [sign]

theorem sign_bne (s t : Bool) : sign (s != t) = sign s * sign t := by
  cases s <;> cases t <;> simp [sign]

/-- The exact value of a finite number. -/
def toRat (x : Binary32) : ℚ := x.units / 2 ^ 149

theorem toRat_eq (x : Binary32) : x.toRat = sign x.negative * (x.magnitude / 2 ^ 149) := by
  unfold toRat units sign
  cases x.negative <;> simp [neg_div]

theorem oneUnits_eq : ((oneUnits : Nat) : ℚ) = 2 ^ 149 := by
  unfold oneUnits
  rw [Nat.one_shiftLeft]
  push_cast
  rfl

section OfPattern

variable {p : Nat} (hp : p ≤ infinityPattern) (negative : Bool)
include hp

theorem toNat_ofPattern :
    (ofPattern negative p).bits.toNat = if negative then 2147483648 + p else p := by
  have hinfinity : infinityPattern = 2139095040 := rfl
  have htop : (1 <<< 31 : Nat) = 2147483648 := rfl
  rw [hinfinity] at hp
  unfold ofPattern
  rw [htop]
  exact UInt32.toNat_ofNat_of_lt' (by unfold UInt32.size; split <;> omega)

theorem negative_ofPattern : (ofPattern negative p).negative = negative := by
  have hinfinity : infinityPattern = 2139095040 := rfl
  have htop : (1 <<< 31 : Nat) = 2147483648 := rfl
  rw [hinfinity] at hp
  unfold Binary32.negative
  rw [toNat_ofPattern hp, htop]
  cases negative
  · simp; omega
  · simp

theorem pattern_ofPattern : (ofPattern negative p).pattern = p := by
  have hinfinity : infinityPattern = 2139095040 := rfl
  have htop : (1 <<< 31 : Nat) = 2147483648 := rfl
  rw [hinfinity] at hp
  unfold pattern
  rw [toNat_ofPattern hp, htop]
  cases negative <;> simp <;> omega

end OfPattern

/-! ## Nearness -/

/-- The number is finite, and as near to the value as one rounding leaves it. -/
structure Near (x : Binary32) (v : ℚ) : Prop where
  finite : x.pattern < infinityPattern
  error : |x.toRat - v| ≤ |v| / 2 ^ 24 + 1 / 2 ^ 150

theorem round_near (negative : Bool) {num den : Nat} (hden : 0 < den)
    (hsmall : num < den * 2 ^ 276) :
    Near (round negative num den) (sign negative * (num / den / 2 ^ 149)) := by
  obtain ⟨hfinite, herror⟩ := unitsOf_roundPattern hden hsmall
  have hpattern := pattern_ofPattern hfinite.le negative
  refine ⟨hpattern.symm ▸ hfinite, ?_⟩
  have hvalue : (round negative num den).toRat =
      sign negative * (unitsOf (roundPattern num den) / 2 ^ 149) := by
    unfold round
    rw [toRat_eq, negative_ofPattern hfinite.le, magnitude, hpattern]
  have hnonneg : (0 : ℚ) ≤ num / den / 2 ^ 149 := by positivity
  rw [hvalue, ← mul_sub, abs_mul, abs_mul, abs_sign, one_mul, one_mul, abs_of_nonneg hnonneg,
    ← sub_div, abs_div, abs_of_pos (by positivity : (0 : ℚ) < 2 ^ 149)]
  calc |(unitsOf (roundPattern num den) : ℚ) - num / den| / 2 ^ 149
      ≤ ((num : ℚ) / den / 2 ^ 24 + 1 / 2) / 2 ^ 149 := by gcongr
    _ = (num : ℚ) / den / 2 ^ 149 / 2 ^ 24 + 1 / 2 ^ 150 := by ring

theorem isNaN_eq_false_iff {x : Binary32} : x.isNaN = false ↔ x.pattern ≤ infinityPattern :=
  decide_eq_false_iff_not.trans Nat.not_lt

theorem not_nan_of_finite {x : Binary32} (h : x.pattern < infinityPattern) : x.isNaN = false :=
  isNaN_eq_false_iff.mpr h.le

theorem not_infinite_of_finite {x : Binary32} (h : x.pattern < infinityPattern) :
    x.isInfinite = false := decide_eq_false h.ne

theorem ofInt_near {n : Int} (h : n.natAbs < 2 ^ 127) : Near (ofInt n) n := by
  have hunits : n.natAbs * oneUnits < 1 * 2 ^ 276 := by
    unfold oneUnits
    rw [Nat.one_shiftLeft, Nat.one_mul, show 276 = 127 + 149 from rfl, Nat.pow_add]
    exact Nat.mul_lt_mul_of_pos_right h (by positivity)
  have hnear := round_near (decide (n < 0)) Nat.one_pos hunits
  have hvalue : sign (decide (n < 0)) * (((n.natAbs * oneUnits : Nat) : ℚ) / (1 : Nat) / 2 ^ 149) =
      n := by
    rw [Nat.cast_mul, oneUnits_eq, Nat.cast_one, div_one, mul_div_cancel_right₀ _ (by positivity)]
    unfold sign
    rcases lt_or_ge n 0 with hn | hn
    · rw [decide_eq_true hn, if_pos rfl, Nat.cast_natAbs, abs_of_neg hn]
      push_cast
      ring
    · rw [decide_eq_false (not_lt.mpr hn), if_neg Bool.false_ne_true, Nat.cast_natAbs,
        abs_of_nonneg hn, one_mul]
  rw [hvalue] at hnear
  exact hnear

theorem ofDecimal_near (negative : Bool) {digits : Nat} (h : digits < 2 ^ 127) (places : Nat) :
    Near (ofDecimal negative digits (-(places : Int))) (sign negative * (digits / 10 ^ places)) := by
  have hplaces : (- -(places : Int)).toNat = places := by omega
  have hwhole : (-(places : Int)).toNat = 0 := by omega
  have hunits : digits * oneUnits < 10 ^ places * 2 ^ 276 := by
    unfold oneUnits
    rw [Nat.one_shiftLeft, show 276 = 127 + 149 from rfl, Nat.pow_add]
    calc digits * 2 ^ 149 < 2 ^ 127 * 2 ^ 149 := Nat.mul_lt_mul_of_pos_right h (by positivity)
      _ ≤ 10 ^ places * (2 ^ 127 * 2 ^ 149) := Nat.le_mul_of_pos_left _ (by positivity)
  have hpow : 0 < 10 ^ places := by positivity
  have hnear := round_near negative hpow hunits
  unfold ofDecimal
  rw [hplaces, hwhole]
  have hvalue : ((digits * oneUnits : Nat) : ℚ) / (10 ^ places : Nat) / 2 ^ 149 =
      digits / 10 ^ places := by
    rw [Nat.cast_mul, oneUnits_eq]
    push_cast
    field_simp
  rw [hvalue] at hnear
  have hdigits : digits * Nat.pow 10 0 * oneUnits = digits * oneUnits := by simp
  rw [hdigits]
  exact hnear

theorem abs_toRat (x : Binary32) : |x.toRat| = x.magnitude / 2 ^ 149 := by
  rw [toRat_eq, abs_mul, abs_sign, one_mul, abs_of_nonneg (by positivity)]

section Operations

variable {x y : Binary32} (hx : x.pattern < infinityPattern) (hy : y.pattern < infinityPattern)

theorem magnitude_pos (h : y.toRat ≠ 0) : 0 < y.magnitude := by
  refine Nat.pos_of_ne_zero fun hmagnitude => h ?_
  rw [toRat_eq, hmagnitude]
  simp

include hx hy

/-- The product of finite numbers is rounded once. -/
theorem mul_eq_round :
    x * y = round (x.negative != y.negative) (x.magnitude * y.magnitude) oneUnits := by
  change mul x y = _
  simp [mul, not_nan_of_finite hx, not_nan_of_finite hy, not_infinite_of_finite hx,
    not_infinite_of_finite hy]

/-- The quotient of finite numbers is rounded once. -/
theorem div_eq_round (h : 0 < y.magnitude) :
    x / y = round (x.negative != y.negative) (x.magnitude * oneUnits) y.magnitude := by
  have hpattern : y.pattern ≠ 0 := by
    intro hp
    unfold magnitude at h
    rw [hp] at h
    exact absurd h (by decide)
  change div x y = _
  simp [div, not_nan_of_finite hx, not_nan_of_finite hy, not_infinite_of_finite hx,
    not_infinite_of_finite hy, hpattern]

theorem mul_near (h : |x.toRat * y.toRat| < 2 ^ 127) : Near (x * y) (x.toRat * y.toRat) := by
  have hunits : x.magnitude * y.magnitude < oneUnits * 2 ^ 276 := by
    rw [abs_mul, abs_toRat, abs_toRat, div_mul_div_comm, div_lt_iff₀ (by positivity)] at h
    have hcast : ((x.magnitude * y.magnitude : Nat) : ℚ) < (oneUnits * 2 ^ 276 : Nat) := by
      rw [Nat.cast_mul, Nat.cast_mul, oneUnits_eq, show 276 = 127 + 149 from rfl, pow_add]
      push_cast
      linarith
    exact_mod_cast hcast
  have hvalue : sign (x.negative != y.negative) *
      (((x.magnitude * y.magnitude : Nat) : ℚ) / oneUnits / 2 ^ 149) = x.toRat * y.toRat := by
    rw [toRat_eq, toRat_eq, sign_bne, oneUnits_eq]
    push_cast
    ring
  rw [mul_eq_round hx hy, ← hvalue]
  exact round_near _ (by decide) hunits

theorem div_near (hzero : y.toRat ≠ 0) (h : |x.toRat / y.toRat| < 2 ^ 127) :
    Near (x / y) (x.toRat / y.toRat) := by
  have hpos := magnitude_pos hzero
  have hpos' : (0 : ℚ) < y.magnitude := by exact_mod_cast hpos
  have hunits : x.magnitude * oneUnits < y.magnitude * 2 ^ 276 := by
    rw [abs_div, abs_toRat, abs_toRat, div_div_div_cancel_right₀ (by positivity),
      div_lt_iff₀ hpos'] at h
    have hcast : ((x.magnitude * oneUnits : Nat) : ℚ) < (y.magnitude * 2 ^ 276 : Nat) := by
      rw [Nat.cast_mul, Nat.cast_mul, oneUnits_eq, show 276 = 127 + 149 from rfl, pow_add]
      push_cast
      linarith [mul_lt_mul_of_pos_right h (by positivity : (0 : ℚ) < 2 ^ 149)]
    exact_mod_cast hcast
  have hvalue : sign (x.negative != y.negative) *
      (((x.magnitude * oneUnits : Nat) : ℚ) / y.magnitude / 2 ^ 149) = x.toRat / y.toRat := by
    have hunit : ((x.magnitude * oneUnits : Nat) : ℚ) / y.magnitude / 2 ^ 149 =
        x.magnitude / y.magnitude := by
      rw [Nat.cast_mul, oneUnits_eq]
      field_simp
    rw [eq_div_iff hzero, hunit, sign_bne, toRat_eq x, toRat_eq y]
    calc sign x.negative * sign y.negative * ((x.magnitude : ℚ) / y.magnitude) *
          (sign y.negative * (y.magnitude / 2 ^ 149))
        = sign x.negative * (sign y.negative * sign y.negative) *
            ((x.magnitude : ℚ) / y.magnitude * y.magnitude / 2 ^ 149) := by ring
      _ = sign x.negative * (x.magnitude / 2 ^ 149) := by
          rw [sign_mul_self, mul_one, div_mul_cancel₀ _ hpos'.ne']
  rw [div_eq_round hx hy hpos, ← hvalue]
  exact round_near _ hpos hunits

end Operations

/-! ## Order -/

theorem unitsOf_mono : Monotone unitsOf := by
  refine monotone_nat_of_le_succ fun p => ?_
  have htop : (1 <<< 23 : Nat) = 8388608 := rfl
  unfold unitsOf
  rw [htop, Nat.shiftRight_eq_div_pow, Nat.shiftRight_eq_div_pow,
    show (2 : Nat) ^ 23 = 8388608 from rfl]
  by_cases hcarry : (p + 1) % 8388608 = 0
  · -- the fraction is full, and the exponent takes the next step
    obtain ⟨e, he⟩ : ∃ e, p = e * 8388608 + 8388607 := ⟨p / 8388608, by omega⟩
    have hdiv : p / 8388608 = e := by omega
    have hmod : p % 8388608 = 8388607 := by omega
    have hdiv' : (p + 1) / 8388608 = e + 1 := by omega
    rw [hdiv, hmod, hdiv', hcarry, if_neg (Nat.succ_ne_zero e), Nat.add_sub_cancel]
    rcases Nat.eq_zero_or_pos e with rfl | hpos
    · rw [if_pos rfl, he]
      decide
    · obtain ⟨k, rfl⟩ : ∃ k, e = k + 1 := ⟨e - 1, by omega⟩
      rw [if_neg (Nat.succ_ne_zero k), Nat.add_sub_cancel, Nat.shiftLeft_eq, Nat.shiftLeft_eq,
        Nat.pow_succ]
      have := Nat.two_pow_pos k
      omega
  · have hdiv : (p + 1) / 8388608 = p / 8388608 := by omega
    have hmod : (p + 1) % 8388608 = p % 8388608 + 1 := by omega
    rw [hdiv, hmod]
    split
    · exact Nat.le_succ p
    · rw [Nat.shiftLeft_eq, Nat.shiftLeft_eq]
      exact Nat.mul_le_mul_right _ (by omega)

/-- The pattern of a number with its sign. Numbers are ordered as these are. -/
def place (x : Binary32) : Int := if x.negative then -x.pattern else x.pattern

theorem le_iff {x y : Binary32} :
    x.le y = true ↔ x.isNaN = false ∧ y.isNaN = false ∧ x.place ≤ y.place := by
  unfold le key place
  cases x.isNaN <;> cases y.isNaN <;> cases x.negative <;> cases y.negative <;> simp

theorem lt_iff {x y : Binary32} :
    x.lt y = true ↔ x.isNaN = false ∧ y.isNaN = false ∧ x.place < y.place := by
  unfold lt key place
  cases x.isNaN <;> cases y.isNaN <;> cases x.negative <;> cases y.negative <;> simp

/-- A function of the pattern of a magnitude, with the sign put back. -/
def withSign (f : Nat → Nat) (x : Binary32) : Int :=
  if x.negative then -f x.pattern else f x.pattern

/-- What keeps the order of magnitudes, and zero, keeps the order of numbers. -/
theorem withSign_mono {f : Nat → Nat} (hf : Monotone f) (hzero : f 0 = 0) {x y : Binary32}
    (h : x.place ≤ y.place) : x.withSign f ≤ y.withSign f := by
  unfold place at h
  unfold withSign
  cases hx : x.negative <;> cases hy : y.negative <;>
    simp only [hx, hy, if_true, Bool.false_eq_true, if_false] at h ⊢
  · exact Int.ofNat_le.mpr (hf (Int.ofNat_le.mp h))
  · -- a number that is not negative is below a negative one only if both are zeros
    have hxzero : x.pattern = 0 := by omega
    have hyzero : y.pattern = 0 := by omega
    rw [hxzero, hyzero, hzero]
    exact Int.le_refl 0
  · omega
  · have hle : f y.pattern ≤ f x.pattern := hf (by omega)
    omega

/-- Numbers in order have their values in order. -/
theorem toRat_le_of_lt {x y : Binary32} (h : x.lt y = true) : x.toRat ≤ y.toRat := by
  have hunits : x.units ≤ y.units :=
    withSign_mono unitsOf_mono (by decide) (lt_iff.mp h).2.2.le
  have hcast : (x.units : ℚ) ≤ y.units := by exact_mod_cast hunits
  unfold toRat
  gcongr

/-! ## Nearest integers -/

/-- The magnitude is rounded to the nearest whole number, a half up. -/
theorem whole_bounds (x : Binary32) :
    (((2 * x.magnitude + oneUnits) / (2 * oneUnits) : Nat) : ℚ) ≤ |x.toRat| + 1 / 2 ∧
      |x.toRat| + 1 / 2 < ((2 * x.magnitude + oneUnits) / (2 * oneUnits) : Nat) + 1 := by
  have hunits : (0 : ℚ) < oneUnits := by rw [oneUnits_eq]; positivity
  have hvalue : |x.toRat| + 1 / 2 = (2 * x.magnitude + oneUnits : Nat) / (2 * oneUnits : Nat) := by
    rw [abs_toRat, ← oneUnits_eq]
    push_cast
    field_simp
  have hdouble : (0 : ℚ) < (2 * oneUnits : Nat) := by
    push_cast
    linarith
  have hfloor := Nat.div_mul_le_self (2 * x.magnitude + oneUnits) (2 * oneUnits)
  have hceil := Nat.lt_mul_div_succ (2 * x.magnitude + oneUnits)
    (by decide : 0 < 2 * oneUnits)
  rw [hvalue, le_div_iff₀ hdouble, div_lt_iff₀ hdouble]
  constructor
  · exact_mod_cast hfloor
  · rw [Nat.mul_comm (2 * oneUnits)] at hceil
    exact_mod_cast hceil

/-- A number that is less than a half away from a whole one is rounded to it. -/
theorem nearestInt_eq {x : Binary32} {c : Int} (h : |x.toRat - c| < 1 / 2) : x.nearestInt = c := by
  obtain ⟨hlow, hhigh⟩ := x.whole_bounds
  obtain ⟨habove, hbelow⟩ := abs_lt.mp h
  have hvalue := x.toRat_eq
  have habs := x.abs_toRat
  unfold nearestInt
  dsimp only
  generalize (2 * x.magnitude + oneUnits) / (2 * oneUnits) = n at hlow hhigh
  cases hsign : x.negative with
  | false =>
    rw [hsign, ← habs, sign, if_neg Bool.false_ne_true, one_mul] at hvalue
    have hle : (n : ℚ) < c + 1 := by linarith
    have hge : (c : ℚ) < n + 1 := by linarith
    have hle' : (n : Int) < c + 1 := by exact_mod_cast hle
    have hge' : c < (n : Int) + 1 := by exact_mod_cast hge
    rw [if_neg Bool.false_ne_true]
    omega
  | true =>
    rw [hsign, ← habs, sign, if_pos rfl] at hvalue
    have hle : (n : ℚ) < -c + 1 := by linarith
    have hge : (-c : ℚ) < n + 1 := by linarith
    have hle' : (n : Int) < -c + 1 := by exact_mod_cast hle
    have hge' : -c < (n : Int) + 1 := by exact_mod_cast hge
    rw [if_pos rfl]
    omega

end Binary32
end AdcCapture
