/-
  Rounding keeps the order of numbers. A greater quotient is rounded to no lower a pattern
  (`Binary32.roundPattern_mono`); with the signs put back (`Binary32.withSign_mono`), so are
  division by a positive number (`Binary32.div_mono`) and the nearest integer of a range
  (`Binary32.toIntWithin_mono`) monotone, on all numbers, the infinities included.
-/
import Mathlib.Tactic.SplitIfs
import AdcCapture.Proofs.Rounding

namespace AdcCapture

/-- A greater quotient is not rounded to less. -/
theorem roundHalfEven_mono (den : Nat) : Monotone (roundHalfEven · den) := by
  intro m n h
  change roundHalfEven m den ≤ roundHalfEven n den
  rcases (Nat.div_le_div_right (c := den) h).lt_or_eq with hlt | heq
  · have hm := roundHalfEven_cases m den
    have hn := roundHalfEven_cases n den
    omega
  · have hmod : m % den ≤ n % den := by
      have hm := Nat.div_add_mod m den
      have hn := Nat.div_add_mod n den
      rw [heq] at hm
      omega
    unfold roundHalfEven
    dsimp only
    rw [heq]
    split_ifs <;> omega

namespace Binary32

/-! ## Patterns -/

/-- A greater quotient is not rounded to a lower pattern. -/
theorem roundPattern_mono {den : Nat} (hden : 0 < den) : Monotone (roundPattern · den) := by
  intro m n h
  change roundPattern m den ≤ roundPattern n den
  obtain ⟨hhigh, -⟩ := @rounded_bounds m den hden
  obtain ⟨-, hlow⟩ := @rounded_bounds n den hden
  have hshift : Nat.log2 (m / den) - 23 ≤ Nat.log2 (n / den) - 23 := by
    rw [Nat.log2_eq_log_two, Nat.log2_eq_log_two]
    exact Nat.sub_le_sub_right (Nat.log_mono_right (Nat.div_le_div_right h)) 23
  unfold roundPattern
  refine min_le_min_right infinityPattern ?_
  rcases hshift.lt_or_eq with hlt | heq
  · -- one grid rounds up to the next power of two at most, which the coarser one starts from
    have htop : (1 <<< 23 : Nat) = 8388608 := rfl
    have htop' : (1 <<< 24 : Nat) = 16777216 := rfl
    generalize roundHalfEven m (den <<< (Nat.log2 (m / den) - 23)) = p at hhigh ⊢
    generalize roundHalfEven n (den <<< (Nat.log2 (n / den) - 23)) = q at hlow ⊢
    rw [Nat.shiftLeft_eq, Nat.shiftLeft_eq]
    omega
  · rw [heq]
    exact Nat.add_le_add_left (roundHalfEven_mono _ h) _

/-- The pattern of the quotient of a magnitude, given by its pattern, and `den` units. -/
def quotientPattern (den p : Nat) : Nat :=
  if p < infinityPattern then roundPattern (unitsOf p * oneUnits) den else infinityPattern

theorem quotientPattern_le (den p : Nat) : quotientPattern den p ≤ infinityPattern := by
  unfold quotientPattern
  split_ifs
  · exact Nat.min_le_right _ _
  · exact Nat.le_refl _

theorem quotientPattern_mono {den : Nat} (hden : 0 < den) : Monotone (quotientPattern den) := by
  intro p q h
  by_cases hq : q < infinityPattern
  · unfold quotientPattern
    rw [if_pos hq, if_pos (Nat.lt_of_le_of_lt h hq)]
    exact roundPattern_mono hden (Nat.mul_le_mul_right oneUnits (unitsOf_mono h))
  · have htop : quotientPattern den q = infinityPattern := if_neg hq
    rw [htop]
    exact quotientPattern_le den p

theorem quotientPattern_zero {den : Nat} (hden : 0 < den) : quotientPattern den 0 = 0 := by
  have hquotient : 0 / den = 0 := Nat.zero_div den
  have hround : roundHalfEven 0 den = 0 := by
    unfold roundHalfEven
    dsimp only
    rw [Nat.zero_mod, hquotient, if_pos hden]
  unfold quotientPattern roundPattern
  rw [if_pos (by decide), show unitsOf 0 * oneUnits = 0 by decide, hquotient]
  simp [hround]

/-! ## Division -/

section Division

variable {x y step : Binary32} (hfinite : step.pattern < infinityPattern) (hpos : 0 < step.toRat)
include hfinite hpos

omit hfinite in
theorem negative_of_pos : step.negative = false := by
  rw [toRat_eq] at hpos
  cases hsign : step.negative with
  | false => rfl
  | true =>
    have hnonneg : (0 : ℚ) ≤ step.magnitude / 2 ^ 149 := by positivity
    rw [hsign, sign, if_pos rfl] at hpos
    linarith

/-- A number divided by a positive one keeps its sign. -/
theorem div_eq_ofPattern (hx : x.isNaN = false) :
    x / step = ofPattern x.negative (quotientPattern step.magnitude x.pattern) := by
  have hsign : (x.negative != step.negative) = x.negative := by
    rw [negative_of_pos hpos, Bool.bne_false]
  unfold quotientPattern
  split_ifs with h
  · rw [div_eq_round h hfinite (magnitude_pos hpos.ne'), hsign]
    rfl
  · have hinfinite : x.isInfinite = true :=
      decide_eq_true (Nat.le_antisymm (isNaN_eq_false_iff.mp hx) (Nat.not_lt.mp h))
    change div x step = _
    simp [div, hx, not_nan_of_finite hfinite, hinfinite, not_infinite_of_finite hfinite, hsign,
      infinity]

/-- Division by a positive number keeps the order of numbers. -/
theorem div_mono (h : x.le y = true) : (x / step).le (y / step) = true := by
  obtain ⟨hx, hy, hle⟩ := le_iff.mp h
  have hden := magnitude_pos hpos.ne'
  have hquotient : ∀ {z : Binary32}, z.isNaN = false → (z / step).isNaN = false ∧
      (z / step).place = z.withSign (quotientPattern step.magnitude) := by
    intro z hz
    have hp := quotientPattern_le step.magnitude z.pattern
    rw [div_eq_ofPattern hfinite hpos hz]
    refine ⟨isNaN_eq_false_iff.mpr ?_, ?_⟩
    · rwa [pattern_ofPattern hp]
    · unfold place withSign
      rw [negative_ofPattern hp, pattern_ofPattern hp]
  obtain ⟨hxnumber, hxplace⟩ := hquotient hx
  obtain ⟨hynumber, hyplace⟩ := hquotient hy
  refine le_iff.mpr ⟨hxnumber, hynumber, ?_⟩
  rw [hxplace, hyplace]
  exact withSign_mono (quotientPattern_mono hden) (quotientPattern_zero hden) hle

end Division

/-! ## Nearest integers -/

section Nearest

variable {x y : Binary32} (h : x.le y = true)
include h

theorem nearestInt_mono : x.nearestInt ≤ y.nearestInt := by
  refine withSign_mono (f := fun p => (2 * unitsOf p + oneUnits) / (2 * oneUnits)) ?_ (by decide)
    (le_iff.mp h).2.2
  intro p q hle
  exact Nat.div_le_div_right (Nat.add_le_add_right (Nat.mul_le_mul_left 2 (unitsOf_mono hle)) _)

/-- The nearest integer of a range keeps the order of numbers. -/
theorem toIntWithin_mono {lo hi : Int} (hrange : lo ≤ hi) :
    x.toIntWithin lo hi ≤ y.toIntWithin lo hi := by
  have hnearest := nearestInt_mono h
  obtain ⟨hx, hy, hle⟩ := le_iff.mp h
  have hxtop := isNaN_eq_false_iff.mp hx
  have hytop := isNaN_eq_false_iff.mp hy
  have hpos : 0 < infinityPattern := by decide
  unfold place at hle
  unfold toIntWithin isInfinite
  rw [hx, hy, if_neg Bool.false_ne_true, if_neg Bool.false_ne_true]
  -- an infinity is an end of the range, and only itself lies beyond it
  cases hsx : x.negative <;> cases hsy : y.negative <;>
    simp only [hsx, hsy, if_true, Bool.false_eq_true, if_false, decide_eq_true_eq] at hle ⊢ <;>
    split_ifs <;> omega

end Nearest

end Binary32

end AdcCapture
