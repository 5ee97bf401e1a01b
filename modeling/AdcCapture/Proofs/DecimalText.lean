/-
  The text of a number with a fixed number of decimals, read back. Without the blanks that align it
  on the right the text is a numeral that says exactly what was written: the sign, and the number
  of units of the last decimal (`Binary32.ofList?_fixedChars`). With a blank before it the text is
  no numeral (`Binary32.Numeral.ofList?_blank`).
-/
import Mathlib.Data.List.TakeDrop
import AdcCapture.Binary32.FixedPlaces
import AdcCapture.Binary32.Numeral

namespace AdcCapture.Binary32

namespace Numeral

/-! ## Digits -/

theorem digitValue_digitChar : ∀ d < 10, digitValue (Nat.digitChar d) = d := by decide

theorem ofDigits_concat (ds : List Char) (c : Char) :
    ofDigits (ds ++ [c]) = 10 * ofDigits ds + digitValue c := by
  unfold ofDigits
  rw [List.foldl_append]
  rfl

/-- The digits of a number write that number. -/
theorem ofDigits_toDigits (n : Nat) : ofDigits (Nat.toDigits 10 n) = n := by
  induction n using Nat.strongRecOn with
  | ind n ih =>
    rw [Nat.toDigits_eq_if (by decide)]
    split
    · rename_i hlt
      exact (Nat.zero_add _).trans (digitValue_digitChar n hlt)
    · rw [ofDigits_concat, ih (n / 10) (by omega),
        digitValue_digitChar (n % 10) (Nat.mod_lt n (by decide))]
      omega

/-- Zeros before the digits of a number change nothing. -/
theorem ofDigits_zeros (k : Nat) (ds : List Char) :
    ofDigits (List.replicate k '0' ++ ds) = ofDigits ds := by
  induction k with
  | zero => rfl
  | succ k ih => exact ih

theorem span_digits {ds rest : List Char} (hds : ∀ c ∈ ds, c.isDigit = true)
    (hrest : ∀ c ∈ rest.head?, c.isDigit = false) :
    (ds ++ rest).span Char.isDigit = (ds, rest) := by
  rw [List.span_eq_takeWhile_dropWhile, List.takeWhile_append_of_pos hds,
    List.dropWhile_append_of_pos hds]
  cases rest with
  | nil => simp
  | cons c s =>
    have hc := hrest c rfl
    rw [List.takeWhile_cons_of_neg (by simp [hc]), List.dropWhile_cons_of_neg (by simp [hc]),
      List.append_nil]

/-- Digits with a point between them, and at least one before it. -/
structure Pointed (whole fraction : List Char) : Prop where
  before : ∀ c ∈ whole, c.isDigit = true
  after : ∀ c ∈ fraction, c.isDigit = true
  nonempty : whole ≠ []

namespace Pointed

variable {whole fraction : List Char} (h : Pointed whole fraction)
include h

theorem decimal?_eq (neg : Bool) : decimal? neg (whole ++ '.' :: fraction) =
    some (decimal neg (ofDigits (whole ++ fraction)) (-(fraction.length : Int))) := by
  have hwhole : (whole ++ '.' :: fraction).span Char.isDigit = (whole, '.' :: fraction) := by
    refine span_digits h.before fun c hc => ?_
    cases hc
    decide
  have hfraction : splitFraction ('.' :: fraction) = (fraction, []) := by
    have hspan := @span_digits fraction [] h.after nofun
    rw [List.append_nil] at hspan
    exact hspan
  have hnonempty : whole.isEmpty = false := List.isEmpty_eq_false_iff.mpr h.nonempty
  unfold decimal?
  rw [hwhole]
  dsimp only
  rw [hfraction]
  dsimp only
  rw [hnonempty]
  simp [scale?]

/-- The first character is a digit. -/
theorem head : ∃ c s, whole ++ '.' :: fraction = c :: s ∧ c.isDigit = true := by
  obtain ⟨c, s, rfl⟩ := List.exists_cons_of_ne_nil h.nonempty
  exact ⟨c, _, rfl, h.before c List.mem_cons_self⟩

/-- The digits are read back with their sign. -/
theorem ofList?_eq (neg : Bool) :
    ofList? (if neg then '-' :: (whole ++ '.' :: fraction) else whole ++ '.' :: fraction) =
      some (decimal neg (ofDigits (whole ++ fraction)) (-(fraction.length : Int))) := by
  have hsign : splitSign (if neg then '-' :: (whole ++ '.' :: fraction)
      else whole ++ '.' :: fraction) = (neg, whole ++ '.' :: fraction) := by
    cases neg with
    | true => rfl
    | false =>
      obtain ⟨c, s, hbody, hc⟩ := h.head
      rw [if_neg Bool.false_ne_true, hbody]
      unfold splitSign
      split
      · rename_i heq
        cases heq
        cases hc
      · rename_i heq
        cases heq
        cases hc
      · rfl
  unfold ofList?
  rw [hsign]
  dsimp only
  rw [h.decimal?_eq]
  rfl

end Pointed

/-- A text that begins with a blank is no numeral. -/
theorem ofList?_blank (s : List Char) : ofList? (' ' :: s) = none := by
  have hsign : splitSign (' ' :: s) = (false, ' ' :: s) := rfl
  have hdecimal : decimal? false (' ' :: s) = none := by
    have hspan : (' ' :: s).span Char.isDigit = ([], ' ' :: s) := by
      rw [List.span_eq_takeWhile_dropWhile]
      rfl
    unfold decimal?
    rw [hspan]
    rfl
  have hword : word? false (' ' :: s) = none := by
    have hhead : (' ' :: s).map Char.toLower = ' ' :: s.map Char.toLower := rfl
    unfold word?
    rw [hhead]
    simp
  unfold ofList?
  rw [hsign]
  dsimp only
  rw [hdecimal, hword]
  rfl

end Numeral

/-! ## Fixed places -/

open Numeral (Pointed ofDigits ofList?)

/-- The digits of a number with a point before the last of them write that number. -/
theorem placePoint_pointed {places : Nat} (hplaces : places ≠ 0) (n : Nat) :
    ∃ whole fraction, placePoint places n = whole ++ '.' :: fraction ∧ Pointed whole fraction ∧
      fraction.length = places ∧ ofDigits (whole ++ fraction) = n := by
  have hdigits : ∀ c ∈ List.replicate (places + 1 - (Nat.toDigits 10 n).length) '0' ++
      Nat.toDigits 10 n, c.isDigit = true := by
    intro c hc
    rcases List.mem_append.mp hc with hc | hc
    · rw [List.eq_of_mem_replicate hc]
      decide
    · exact Nat.isDigit_of_mem_toDigits (by decide) (by decide) hc
  have hvalue := (Numeral.ofDigits_zeros (places + 1 - (Nat.toDigits 10 n).length)
    (Nat.toDigits 10 n)).trans (Numeral.ofDigits_toDigits n)
  have hlength : places + 1 ≤ (List.replicate (places + 1 - (Nat.toDigits 10 n).length) '0' ++
      Nat.toDigits 10 n).length := by
    rw [List.length_append, List.length_replicate]
    omega
  unfold placePoint
  dsimp only
  rw [if_neg hplaces]
  generalize List.replicate (places + 1 - (Nat.toDigits 10 n).length) '0' ++
    Nat.toDigits 10 n = ds at hdigits hvalue hlength
  refine ⟨_, _, rfl, ⟨fun c hc => hdigits c (List.mem_of_mem_take hc),
    fun c hc => hdigits c (List.mem_of_mem_drop hc), ?_⟩, ?_, ?_⟩
  · intro hnil
    have hzero := congrArg List.length hnil
    rw [List.length_take, List.length_nil] at hzero
    omega
  · rw [List.length_drop]
    omega
  · rw [List.take_append_drop, hvalue]

/-- The number of units of the last decimal that a number is written with. -/
def fixedUnits (places : Nat) (x : Binary32) : Nat :=
  roundHalfEven (x.magnitude * Nat.pow 10 places) oneUnits

section Finite

variable {x : Binary32} (hnan : x.isNaN = false) (hinfinite : x.isInfinite = false)
include hnan hinfinite

theorem fixedChars_eq (places : Nat) : fixedChars places x =
    if x.negative then '-' :: placePoint places (x.fixedUnits places)
    else placePoint places (x.fixedUnits places) := by
  unfold fixedChars fixedUnits
  rw [hnan, hinfinite]
  rfl

/-- What is written of a finite number is read back: the sign and the units of the last decimal. -/
theorem ofList?_fixedChars {places : Nat} (hplaces : places ≠ 0) : ofList? (fixedChars places x) =
    some (.decimal x.negative (x.fixedUnits places) (-(places : Int))) := by
  obtain ⟨whole, fraction, hbody, hpointed, hlength, hvalue⟩ :=
    placePoint_pointed hplaces (x.fixedUnits places)
  rw [fixedChars_eq hnan hinfinite, hbody, hpointed.ofList?_eq, hlength, hvalue]

/-- A finite number is written without blanks. -/
theorem head_fixedChars {places : Nat} (hplaces : places ≠ 0) :
    ∃ c s, fixedChars places x = c :: s ∧ c ≠ ' ' := by
  obtain ⟨whole, fraction, hbody, hpointed, -⟩ :=
    placePoint_pointed hplaces (x.fixedUnits places)
  rw [fixedChars_eq hnan hinfinite, hbody]
  cases x.negative with
  | true => exact ⟨'-', _, rfl, by decide⟩
  | false =>
    obtain ⟨c, s, hbody, hc⟩ := hpointed.head
    refine ⟨c, s, hbody, ?_⟩
    rintro rfl
    cases hc

end Finite

/-! ## Alignment -/

/-- A text without the blanks before it. -/
def trimmed (s : String) : String := String.ofList (s.toList.dropWhile (· = ' '))

section Padded

variable {c : Char} (hc : c ≠ ' ') (s : List Char) (width : Nat)
include hc

theorem dropWhile_padLeft : (padLeft width (c :: s)).dropWhile (· = ' ') = c :: s := by
  have hblanks : ∀ a ∈ List.replicate (width - (c :: s).length) ' ', decide (a = ' ') = true :=
    fun a ha => decide_eq_true (List.eq_of_mem_replicate ha)
  unfold padLeft
  rw [List.dropWhile_append_of_pos hblanks, List.dropWhile_cons_of_neg (by simp [hc])]

omit hc in
/-- A text is aligned by blanks exactly if it is shorter than the columns. -/
theorem padLeft_cases : padLeft width (c :: s) = c :: s ∧ width ≤ (c :: s).length ∨
    (∃ r, padLeft width (c :: s) = ' ' :: r) ∧ (c :: s).length < width := by
  unfold padLeft
  rcases Nat.lt_or_ge (c :: s).length width with h | h
  · obtain ⟨k, hk⟩ : ∃ k, width - (c :: s).length = k + 1 := ⟨width - (c :: s).length - 1, by omega⟩
    rw [hk]
    exact .inr ⟨⟨_, rfl⟩, h⟩
  · rw [Nat.sub_eq_zero_of_le h]
    exact .inl ⟨rfl, h⟩

end Padded

end AdcCapture.Binary32
